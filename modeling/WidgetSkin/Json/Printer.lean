import WidgetSkin.Json.Value

/-!
# Writing JSON

The text of a value over several lines: every item and every member on a line of its own, two
blanks further in than what is around it. Only what has to be is escaped.

## Main definitions

* `Json.quote` — the text of a string.
* `Json.Value.pretty` — the text of a value.
-/

namespace WidgetSkin.Json

/-- The character as it stands between quotation marks. -/
def escape (c : Char) : List Char :=
  match c with
  | '"' => ['\\', '"']
  | '\\' => ['\\', '\\']
  | '\x08' => ['\\', 'b']
  | '\x0c' => ['\\', 'f']
  | '\n' => ['\\', 'n']
  | '\r' => ['\\', 'r']
  | '\t' => ['\\', 't']
  | c =>
    if c.toNat < 0x20 then
      ['\\', 'u', '0', '0', Nat.digitChar (c.toNat / 16), Nat.digitChar (c.toNat % 16)]
    else [c]

/-- The text of a string. -/
def quote (s : String) : List Char :=
  '"' :: (s.toList.flatMap escape ++ ['"'])

/-- A new line at a depth. -/
def newLine (depth : Nat) : List Char :=
  '\n' :: List.replicate (2 * depth) ' '

namespace Value

mutual

/-- The text of a value at a depth. -/
def pretty (depth : Nat) : Value → List Char
  | null => "null".toList
  | bool b => (if b then "true" else "false").toList
  | number n => n.render true
  | string s => quote (s.getD "")
  | array [] => ['[', ']']
  | array (v :: vs) =>
    '[' :: (newLine (depth + 1) ++ pretty (depth + 1) v ++ prettyItems (depth + 1) vs ++
      newLine depth ++ [']'])
  | object [] => ['\x7b', '\x7d']
  | object (m :: ms) =>
    '\x7b' :: (newLine (depth + 1) ++ prettyMember (depth + 1) m ++
      prettyMembers (depth + 1) ms ++ newLine depth ++ ['\x7d'])

/-- The texts of the items behind the first one. -/
def prettyItems (depth : Nat) : List Value → List Char
  | [] => []
  | v :: vs => ',' :: (newLine depth ++ pretty depth v ++ prettyItems depth vs)

/-- The text of a member. -/
def prettyMember (depth : Nat) : Option String × Value → List Char
  | (key, v) => quote (key.getD "") ++ ": ".toList ++ pretty depth v

/-- The texts of the members behind the first one. -/
def prettyMembers (depth : Nat) : List (Option String × Value) → List Char
  | [] => []
  | m :: ms => ',' :: (newLine depth ++ prettyMember depth m ++ prettyMembers depth ms)

end

end Value

end WidgetSkin.Json
