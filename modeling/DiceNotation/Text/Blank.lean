/-!
# Blank characters

Three sets of blanks are in use. The notation skips four of them (`isSkipped`). Reports trim every
blank of Unicode from both ends of a message (`isBlank`). A number on the command line may stand
between the blanks of `isPadding`, which leaves out the four ASCII separators.
-/

set_option autoImplicit false

namespace DiceNotation.Text

/-- The blanks between the tokens of a notation: space, tab, carriage return and line feed. -/
def isSkipped (c : Char) : Bool :=
  c == ' ' || c == '\t' || c == '\r' || c == '\n'

/-- The blanks of Unicode: the spaces, the line and paragraph breaks, and the ASCII separators. -/
def isBlank (c : Char) : Bool :=
  let code := c.toNat
  (0x9 ≤ code && code ≤ 0xD) || (0x1C ≤ code && code ≤ 0x20) || code == 0x85 || code == 0xA0 ||
    code == 0x1680 || (0x2000 ≤ code && code ≤ 0x200A) || code == 0x2028 || code == 0x2029 ||
    code == 0x202F || code == 0x205F || code == 0x3000

/-- The blanks that may surround a number: all but the ASCII file, group, record and unit
separators. -/
def isPadding (c : Char) : Bool :=
  isBlank c && !(0x1C ≤ c.toNat && c.toNat ≤ 0x1F)

/-- A text without the blanks at its two ends. -/
def trim (text : String) : String :=
  String.ofList ((text.toList.dropWhile isBlank).reverse.dropWhile isBlank).reverse

end DiceNotation.Text
