import DiceNotation.Text.Printable

/-!
# Quoted text

A report shows a text between quotes so that every character of it can be told apart. The quote is
the single one, unless the text holds a single quote and no double one. The quote itself and the
backslash are escaped by a backslash, the tab and the two line ends have short escapes, and any
other character that is not printable is written by its code in lower-case hexadecimal, in the
shortest of the three widths that holds it.
-/

set_option autoImplicit false

namespace DiceNotation.Text

/-- The lower-case hexadecimal digits of a number, padded with zeros on the left. -/
def hexPadded (width : Nat) (value : Nat) : String :=
  let digits := Nat.toDigits 16 value
  String.ofList (List.replicate (width - digits.length) '0' ++ digits)

/-- The quote that surrounds a text. -/
def quoteFor (text : String) : Char :=
  if text.contains '\'' && !text.contains '"' then '"' else '\''

/-- How one character is written between quotes. -/
def quotedChar (quote : Char) (c : Char) : String :=
  if c == quote || c == '\\' then "\\" ++ c.toString
  else if c == '\n' then "\\n"
  else if c == '\r' then "\\r"
  else if c == '\t' then "\\t"
  else if isPrintable c then c.toString
  else if c.toNat ≤ 0xFF then "\\x" ++ hexPadded 2 c.toNat
  else if c.toNat ≤ 0xFFFF then "\\u" ++ hexPadded 4 c.toNat
  else "\\U" ++ hexPadded 8 c.toNat

/-- A text between quotes. -/
def quoted (text : String) : String :=
  let quote := quoteFor text
  text.foldl (fun out c => out ++ quotedChar quote c) quote.toString ++ quote.toString

end DiceNotation.Text
