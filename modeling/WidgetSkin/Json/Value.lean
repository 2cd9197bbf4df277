import WidgetSkin.Decimal.Numeral

/-!
# JSON values

A value as it stands in a text. Members of objects keep their order and may repeat. A string
or a key may be one that stands for no text, such as half of a surrogate pair: whether that
matters is for the reader of the value to say.

## Main definitions

* `Json.Value` — the values.
* `Json.Value.fields?` — the slots of a record with named fields, from an object or an array.
-/

namespace WidgetSkin.Json

/-- A JSON value. -/
inductive Value where
  | null
  | bool (b : Bool)
  | number (n : Decimal.Numeral)
  | string (s : Option String)
  | array (items : List Value)
  | object (members : List (Option String × Value))

namespace Value

/-- The value of a string that stands for a text. -/
def ofString (s : String) : Value :=
  string (some s)

/-- An object with given members. -/
def ofMembers (members : List (String × Value)) : Value :=
  object (members.map fun (key, v) => (some key, v))

/-- The truth value that a value stands for. -/
def bool? : Value → Option Bool
  | bool b => some b
  | _ => none

/-- The text that a value stands for. -/
def string? : Value → Option String
  | string s => s
  | _ => none

/-- The natural number below `bound` that a value stands for. -/
def natBelow? (bound : Nat) : Value → Option Nat
  | number n => if n.isInteger ∧ !n.negative ∧ n.whole < bound then some n.whole else none
  | _ => none

/-- The items of a list. -/
def array? : Value → Option (List Value)
  | array items => some items
  | _ => none

/-- The value of the only member with a key, if there is one; a key that comes twice is
refused. -/
def slot? (members : List (Option String × Value)) (name : String) : Option (Option Value) :=
  match members.filter fun m => m.1 == some name with
  | [] => some none
  | [m] => some (some m.2)
  | _ => none

/-- The slots of a record with named fields. An object gives them by name and may hold other
members; an array gives them in order and may end early. -/
def fields? (names : List String) : Value → Option (List (Option Value))
  | object members =>
    if members.all fun m => m.1.isSome then names.mapM (slot? members) else none
  | array items =>
    if items.length ≤ names.length then
      some (items.map some ++ List.replicate (names.length - items.length) none)
    else none
  | _ => none

end Value

end WidgetSkin.Json
