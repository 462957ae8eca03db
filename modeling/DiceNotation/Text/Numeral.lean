import DiceNotation.Text.Blank
import DiceNotation.Text.DecimalDigit

/-!
# Numerals

The reading of a whole number that a person typed: blanks around it, one sign, decimal digits of
any script, and single underscores between digits to group them. A numeral has at most
`maxDigits` digits, whether it is read or written.
-/

set_option autoImplicit false

namespace DiceNotation.Text

/-- The greatest number of digits of a numeral. -/
def maxDigits : Nat := 4300

/-- A number can be written: it has a numeral. -/
def isWritable (value : Int) : Bool :=
  value.natAbs < Nat.pow 10 maxDigits

/-- Reads the digits after a digit, each of which may follow one underscore. The state is the
value and the number of digits so far. -/
def readDigits (value count : Nat) : List Char → Option (Nat × Nat)
  | [] => some (value, count)
  | '_' :: digit :: rest =>
    (decimalValue? digit).bind fun next => readDigits (value * 10 + next) (count + 1) rest
  | digit :: rest =>
    (decimalValue? digit).bind fun next => readDigits (value * 10 + next) (count + 1) rest

/-- Reads digits without a sign; there must be at least one, and not too many. -/
def readNatural : List Char → Option Nat
  | [] => none
  | digit :: rest =>
    (decimalValue? digit).bind fun first =>
      (readDigits first 1 rest).bind fun (value, count) =>
        if count ≤ maxDigits then some value else none

/-- Reads a whole number. -/
def readInteger (text : String) : Option Int :=
  let chars := ((text.toList.dropWhile isPadding).reverse.dropWhile isPadding).reverse
  match chars with
  | '+' :: digits => (readNatural digits).map Int.ofNat
  | '-' :: digits => (readNatural digits).map fun value => -Int.ofNat value
  | digits => (readNatural digits).map Int.ofNat

end DiceNotation.Text
