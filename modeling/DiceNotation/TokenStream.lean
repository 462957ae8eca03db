import DiceNotation.Fault
import DiceNotation.Text.Blank
import DiceNotation.Text.DecimalDigit
import DiceNotation.Word

/-!
# Token streams

A reader asks for one token at a time, so a stream is what such a reader can meet: the tokens in
order, and after them either nothing or a fault. The fault lies in wait behind the tokens and
reaches only a reader that asks for one more.

A text gives a stream by splitting it from left to right. Blanks separate tokens, an operator is
one character, and a number is a maximal run of digits. A run of several digits must not start
with a zero, and its value must be in range; the value is built digit by digit and given up as
soon as it leaves the range, so that a long run costs no large arithmetic. The stream of a text
that has no fault ends with the end of the input, at the length of the text.
-/

set_option autoImplicit false

namespace DiceNotation

/-- The tokens a reader meets, and the fault behind them if there is one. -/
structure TokenStream where
  tokens : List Token
  fault : Option Fault := none
deriving DecidableEq

/-- The value of a run of digits that continues `value`, unless it leaves the range. -/
def literalValue? (value : Nat) : List Char → Option Nat
  | [] => some value
  | digit :: rest =>
    let next := value * 10 + Text.digitValue digit
    if Word.greatest < next then none else literalValue? next rest

/-- The number token of a maximal run of digits. -/
def Token.ofDigits (position : Nat) (digits : List Char) : Except Fault Token :=
  match digits with
  | '0' :: _ :: _ => .error (.leadingZero position)
  | digits =>
    match literalValue? 0 digits with
    | some value => .ok (.number position value)
    | none => .error (.numberTooLarge (String.ofList digits) position)

namespace TokenStream

theorem length_dropWhile_le {α : Type} (p : α → Bool) (list : List α) :
    (list.dropWhile p).length ≤ list.length :=
  (List.dropWhile_sublist p).length_le

/-- Splits the characters from `position` on, after the tokens already read, the last of them
first. -/
def scan (position : Nat) (chars : List Char) (read : List Token) : TokenStream :=
  match chars with
  | [] => ⟨(.endOfInput position :: read).reverse, none⟩
  | c :: rest =>
    if Text.isSkipped c then scan (position + 1) rest read
    else if Text.isDigit c then
      let digits := c :: rest.takeWhile Text.isDigit
      match Token.ofDigits position digits with
      | .ok token =>
        scan (position + digits.length) (rest.dropWhile Text.isDigit) (token :: read)
      | .error fault => ⟨read.reverse, some fault⟩
    else
      match Operator.ofChar? c with
      | some operator => scan (position + 1) rest (.operator position operator :: read)
      | none => ⟨read.reverse, some (.unexpectedCharacter c.toString position)⟩
termination_by chars.length
decreasing_by
  · simp
  · have := length_dropWhile_le Text.isDigit rest
    simp only [List.length_cons]
    omega
  · simp

/-- The stream of a text. -/
def ofText (text : String) : TokenStream :=
  scan 0 text.toList []

end TokenStream

end DiceNotation
