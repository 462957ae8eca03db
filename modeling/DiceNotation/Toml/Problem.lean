/-!
# What can be wrong with a TOML document

A problem is a cause with the number of characters that were left when it was met, from which its
line and column follow. A whole number with too many digits is a problem of its own kind: the text
may be a document all the same, but it cannot be read to its end.
-/

set_option autoImplicit false

namespace DiceNotation.Toml

/-- Why a text is no TOML document. -/
inductive Cause
  | statement
  | lineEnd
  | keyStart
  | equals
  | tableEnd
  | arrayTableEnd
  | duplicateTable
  | overwrite
  | redefine
  | unterminated
  | control
  | escape
  | scalarValue
  | date
  | arrayEnd
  | inlineTableEnd
  | value
  /-- A whole number is written with so many digits, more than a numeral may have. -/
  | numeralTooLong (digits : Nat)
deriving DecidableEq

/-- A cause, and how much of the text was left. -/
structure Problem where
  cause : Cause
  left : Nat
deriving DecidableEq

/-- What a cause says. -/
def Cause.message : Cause → String
  | statement => "Invalid statement"
  | lineEnd => "Expected newline or end of document after a statement"
  | keyStart => "Invalid initial character for a key part"
  | equals => "Expected '=' after a key in a key/value pair"
  | tableEnd => "Expected ']' at the end of a table declaration"
  | arrayTableEnd => "Expected ']]' at the end of an array declaration"
  | duplicateTable => "Cannot declare a table twice"
  | overwrite => "Cannot overwrite a value"
  | redefine => "Cannot redefine a namespace"
  | unterminated => "Unterminated string"
  | control => "Found invalid character"
  | escape => "Unescaped '\\' in a string"
  | scalarValue => "Escaped character is not a Unicode scalar value"
  | date => "Invalid date or datetime"
  | arrayEnd => "Unclosed array"
  | inlineTableEnd => "Unclosed inline table"
  | value => "Invalid value"
  | numeralTooLong digits => s!"Number with {digits} digits"

/-- Where the last of some characters stands: its line and the characters of the line so far. -/
def place (chars : List Char) : Nat × Nat :=
  chars.foldl (fun (line, column) c => if c == '\n' then (line + 1, 1) else (line, column + 1))
    (1, 1)

/-- What is said of a problem in a text. -/
def Problem.message (problem : Problem) (chars : List Char) : String :=
  if problem.left = 0 then s!"{problem.cause.message} (at end of document)"
  else
    let (line, column) := place (chars.take (chars.length - problem.left))
    s!"{problem.cause.message} (at line {line}, column {column})"

/-- Why a text was not read as a document. -/
inductive Failure
  /-- It is no document, as the detail says. -/
  | malformed (detail : String)
  /-- It holds a whole number that is written with so many digits. -/
  | numeralTooLong (digits : Nat)
deriving DecidableEq

/-- The failure that a problem of a text is. -/
def Problem.failure (problem : Problem) (chars : List Char) : Failure :=
  match problem.cause with
  | .numeralTooLong digits => .numeralTooLong digits
  | _ => .malformed (problem.message chars)

/-- A failure before the given characters. -/
def fail {α : Type} (cause : Cause) (rest : List Char) : Except Problem α :=
  .error ⟨cause, rest.length⟩

end DiceNotation.Toml
