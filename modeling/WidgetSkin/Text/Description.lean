import WidgetSkin.Decimal.Style
import WidgetSkin.Text.Escape

/-!
# Descriptions of states

The form in which a state is shown for inspection: records with named fields in braces,
constructors with their argument in parentheses, lists in brackets.

## Main definitions

* `Description.record`, `Description.applied`, `Description.list` — the three forms.
* `Description.text`, `Description.number` — what stands inside.
-/

namespace WidgetSkin.Text.Description

/-- A record with named fields. -/
def record (name : String) (fields : List (String × String)) : String :=
  name ++ " \x7b " ++ ", ".intercalate (fields.map fun (field, v) => field ++ ": " ++ v) ++ " \x7d"

/-- A constructor with one argument. -/
def applied (name argument : String) : String :=
  name ++ "(" ++ argument ++ ")"

/-- A list. -/
def list (items : List String) : String :=
  "[" ++ ", ".intercalate items ++ "]"

/-- A pair of numbers. -/
def pair (a b : String) : String :=
  "(" ++ a ++ ", " ++ b ++ ")"

/-- A value that may be missing. -/
def optional (item : Option String) : String :=
  item.elim "None" (applied "Some")

/-- A text or a path. -/
def text (s : String) : String :=
  quote .description s

/-- A number. -/
def number (x : Float) : String :=
  Decimal.Style.description.text x

/-- A truth value. -/
def flag (b : Bool) : String :=
  if b then "true" else "false"

end WidgetSkin.Text.Description
