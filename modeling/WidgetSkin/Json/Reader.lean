import WidgetSkin.Json.Token

/-!
# Reading JSON

A text is read token by token. What is open around the present place is kept as a list of
frames, innermost first, so that nesting of any depth is one more frame and never recursion.

## Main definitions

* `Json.Frame` — an open array or object that waits for a value.
* `Json.Progress` — what may come next.
* `Json.advance?` — what a token leads to.
* `Json.parse?` — the value of a text.
-/

namespace WidgetSkin.Json

/-- A member of an object. -/
abbrev Member := Option String × Value

/-- An array or object that waits for a value. What was read before it stands last first. -/
inductive Frame where
  | array (items : List Value)
  | member (members : List Member) (key : Option String)

/-- What may come next, inside the frames that are open around it. -/
inductive Progress where
  /-- A value. -/
  | value (outer : List Frame)
  /-- The first item of an array, or its end. -/
  | firstItem (outer : List Frame)
  /-- A comma and an item, or the end of the array. -/
  | afterItem (items : List Value) (outer : List Frame)
  /-- The first key of an object, or its end. -/
  | firstKey (outer : List Frame)
  /-- A key. -/
  | nextKey (members : List Member) (outer : List Frame)
  /-- The colon behind a key. -/
  | colon (members : List Member) (key : Option String) (outer : List Frame)
  /-- A comma and a member, or the end of the object. -/
  | afterMember (members : List Member) (outer : List Frame)
  /-- Nothing. -/
  | done (v : Value)

/-- Hand a value that is complete to the frame around it. -/
def deliver (v : Value) : List Frame → Progress
  | [] => .done v
  | .array items :: outer => .afterItem (v :: items) outer
  | .member members key :: outer => .afterMember ((key, v) :: members) outer

/-- What the first token of a value leads to. -/
def begin? (outer : List Frame) : Token → Option Progress
  | .scalar v => some (deliver v outer)
  | .mark .openArray => some (.firstItem outer)
  | .mark .openObject => some (.firstKey outer)
  | .mark _ => none

/-- What a token leads to. -/
def advance? : Progress → Token → Option Progress
  | .value outer, t => begin? outer t
  | .firstItem outer, .mark .closeArray => some (deliver (.array []) outer)
  | .firstItem outer, t => begin? (.array [] :: outer) t
  | .afterItem items outer, .mark .comma => some (.value (.array items :: outer))
  | .afterItem items outer, .mark .closeArray => some (deliver (.array items.reverse) outer)
  | .firstKey outer, .mark .closeObject => some (deliver (.object []) outer)
  | .firstKey outer, .scalar (.string key) => some (.colon [] key outer)
  | .nextKey members outer, .scalar (.string key) => some (.colon members key outer)
  | .colon members key outer, .mark .colon => some (.value (.member members key :: outer))
  | .afterMember members outer, .mark .comma => some (.nextKey members outer)
  | .afterMember members outer, .mark .closeObject =>
    some (deliver (.object members.reverse) outer)
  | _, _ => none

/-- The value of a sequence of tokens. -/
def ofTokens? (tokens : List Token) : Option Value :=
  match tokens.foldlM advance? (.value []) with
  | some (.done v) => some v
  | _ => none

/-- The value of a text. -/
def parse? (s : List Text.Symbol) : Option Value :=
  (tokens? s).bind ofTokens?

end WidgetSkin.Json
