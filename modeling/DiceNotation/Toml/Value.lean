/-!
# TOML values

A TOML document is a table: names with values, in the order of the text. A value is a string, a
whole number of any size, a floating-point number, a truth value, a date or time, an array or a
table. Floating-point numbers, dates and times are kept as they are written.
-/

set_option autoImplicit false

namespace DiceNotation.Toml

/-- A value. -/
inductive Value
  | string (text : String)
  | integer (value : Int)
  | float (written : String)
  | boolean (value : Bool)
  | moment (written : String)
  | array (items : List Value)
  | table (entries : List (String × Value))

/-- A table. -/
abbrev Table : Type :=
  List (String × Value)

/-- The value of a name in a table. -/
def Table.get? (table : Table) (name : String) : Option Value :=
  table.lookup name

end DiceNotation.Toml
