/-!
# Outlines of values

The one-line form in which diagnostics show a value: its name and its fields in order, with a
closing mark where some fields are withheld.
-/

namespace SealedLogin.Text

/-- Items separated by commas. -/
def commaSeparated (items : List String) : String := ", ".intercalate items

/-- A value with the given fields, each in its own form. Withheld fields show as two dots. -/
def outline (name : String) (fields : List (String × String)) (withheld : Bool) : String :=
  let shown := fields.map fun f => f.1 ++ ": " ++ f.2
  name ++ " \x7b " ++ commaSeparated (shown ++ if withheld then [".."] else []) ++ " \x7d"

/-- A value that may be absent. -/
def outlineOption : Option String → String
  | none => "None"
  | some s => "Some(" ++ s ++ ")"

end SealedLogin.Text
