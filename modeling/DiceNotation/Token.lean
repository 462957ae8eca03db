/-!
# Tokens

A notation is written with whole numbers and three operators. A token is one such piece together
with the place where it starts. The end of the text is a token too, so that a reader always finds
a token to report. A number token carries its value; a token that was made by hand may lack it, or
carry one that its kind has no use for.
-/

set_option autoImplicit false

namespace DiceNotation

/-- The operators. Each may stand before one operand or between two. -/
inductive Operator
  | plus
  | minus
  | die
deriving DecidableEq

/-- What a token is. -/
inductive Kind
  | number
  | operator (operator : Operator)
  | endOfInput
deriving DecidableEq

/-- A token, and the offset in characters at which it starts. -/
structure Token where
  kind : Kind
  position : Int
  value : Option Int := none
deriving DecidableEq

namespace Operator

/-- How an operator is named in a report. -/
def display : Operator → String
  | plus => "Plus"
  | minus => "Minus"
  | die => "Die"

/-- The operator that a character spells; the die operator has two spellings. -/
def ofChar? : Char → Option Operator
  | '+' => some plus
  | '-' => some minus
  | 'd' => some die
  | 'D' => some die
  | _ => none

end Operator

namespace Token

/-- A number token. -/
def number (position value : Int) : Token :=
  ⟨.number, position, some value⟩

/-- An operator token. -/
def operator (position : Int) (operator : Operator) : Token :=
  ⟨.operator operator, position, none⟩

/-- The token at the end of a text. -/
def endOfInput (position : Int) : Token :=
  ⟨.endOfInput, position, none⟩

/-- How a token is named in a report. -/
def display (token : Token) : String :=
  match token.kind, token.value with
  | .number, some value => s!"Number({value})"
  | .number, none => "Number(None)"
  | .operator operator, _ => operator.display
  | .endOfInput, _ => "EndOfInput"

/-- The numbers in the name of a token. -/
def displayed (token : Token) : List Int :=
  match token.kind, token.value with
  | .number, some value => [value]
  | _, _ => []

end Token

end DiceNotation
