import DiceNotation.Settings.Defect
import DiceNotation.Text.Numeral
import DiceNotation.Text.Quoted
import DiceNotation.Token

/-!
# Faults

Everything that can go wrong between a notation and its total. A fault is a cause with the facts
that belong to it; its wording, its kind and the place it points at are functions of the cause.
The faults of a text point at a character, the faults of a token sequence at the token found, and
the faults of an evaluation, a source or a settings file at nothing. A fault may also be stated
freely, as a family with a message of its own.

The message of a fault tells numbers, and a number can be too long to be written. Such a fault
cannot be told: what is told in its place is that its message has no words.
-/

set_option autoImplicit false

namespace DiceNotation

/-- The families of faults that can be stated with a message of their own. -/
inductive Family
  | general
  | configuration
  | source
  | lexical
  | evaluation
  | overflow
deriving DecidableEq

/-- A cause of failure. -/
inductive Fault
  /-- A character that no token starts with. -/
  | unexpectedCharacter (text : String) (position : Int)
  /-- A number of several digits that starts with a zero. -/
  | leadingZero (position : Int)
  /-- A number above `Word.greatest`, with all of its digits. -/
  | numberTooLarge (digits : String) (position : Int)
  /-- A token other than the one that was expected. -/
  | unexpectedToken (expected : String) (found : Token) (wording : Option String)
  /-- The end of the input where something was still expected. -/
  | endOfInput (expected : String) (found : Token)
  /-- A token after a complete expression. -/
  | trailingInput (found : Token)
  /-- A token that would open one level too many. -/
  | nestingTooDeep (found : Token) (limit : Int)
  /-- A number of dice below one, or above the limit. -/
  | rollCount (count : Int) (limit : Option Int)
  /-- A die without sides. -/
  | sideCount (sides : Int)
  /-- A result outside the range of a word. -/
  | overflow (result : Int)
  /-- A replayed sequence with no value left after the accepted ones. -/
  | exhausted (accepted : Nat)
  /-- A replayed value outside the range asked for. -/
  | drawOutOfRange (value low high : Int)
  /-- Settings that cannot be used. -/
  | settings (defect : Settings.Defect)
  /-- A fault of a family, in words of its own. -/
  | stated (family : Family) (message : String) (position : Option Int)
  /-- A fault with a number in its message that is too long to be written. -/
  | unwritable (cause : Fault)
deriving DecidableEq

/-- The kind of a stated fault. -/
def Family.kind : Family → String
  | general => "error"
  | configuration => "config_error"
  | source => "random_source_error"
  | lexical => "lex_error"
  | evaluation => "evaluation_error"
  | overflow => "arithmetic_overflow"

namespace Fault

/-- The kind of a fault, as answers name it. -/
def kind : Fault → String
  | unexpectedCharacter .. => "unexpected_character"
  | leadingZero .. => "invalid_number_start"
  | numberTooLarge .. => "number_overflow"
  | unexpectedToken .. => "syntax_error"
  | endOfInput .. => "unexpected_end_of_input"
  | trailingInput .. => "trailing_input"
  | nestingTooDeep .. => "nesting_too_deep"
  | rollCount .. => "invalid_roll_count"
  | sideCount .. => "invalid_sides"
  | overflow .. => Family.overflow.kind
  | exhausted .. => Family.source.kind
  | drawOutOfRange .. => Family.source.kind
  | settings .. => Family.configuration.kind
  | stated family .. => family.kind
  | unwritable .. => Family.general.kind

/-- Whether a roll of `count` dice breaks the limit, rather than being below one. -/
def exceeds (count : Int) : Option Int → Bool
  | some limit => limit < count
  | none => false

/-- The message of a roll count that is refused. -/
def rollCountMessage (count : Int) (limit : Option Int) : String :=
  match limit with
  | some limit =>
    if limit < count then s!"Too many dice: {count} (max {limit})"
    else s!"Invalid roll count: {count} (must be at least 1)"
  | none => s!"Invalid roll count: {count} (must be at least 1)"

/-- The message of a fault. -/
def message : Fault → String
  | unexpectedCharacter text position =>
    s!"Unexpected character {Text.quoted text} at position {position}"
  | leadingZero position => s!"Invalid number start '0' at position {position}"
  | numberTooLarge digits position => s!"Number {digits} at position {position} is too large"
  | unexpectedToken _ _ (some wording) => wording
  | unexpectedToken expected found none =>
    s!"Expected {expected} at position {found.position}, found {found.display}"
  | endOfInput expected found =>
    s!"Unexpected end of input at position {found.position}: expected {expected}"
  | trailingInput found =>
    s!"Unexpected trailing input {found.display} at position {found.position}"
  | nestingTooDeep found limit =>
    s!"Expression nests deeper than {limit} levels at position {found.position}"
  | rollCount count limit => rollCountMessage count limit
  | sideCount sides => s!"Invalid number of sides: {sides} (must be at least 1)"
  | overflow result => s!"Result {result} is outside the 64-bit integer range"
  | exhausted accepted => s!"Sequence exhausted after {accepted} draw(s)"
  | drawOutOfRange value low high =>
    s!"Draw {value} outside requested range [{low}, {high}]"
  | settings defect => defect.message
  | stated _ message _ => message
  | unwritable _ => "A number has too many digits to be written"

/-- The numbers that the message of a fault tells. -/
def numbers : Fault → List Int
  | unexpectedCharacter _ position => [position]
  | leadingZero position => [position]
  | numberTooLarge _ position => [position]
  | unexpectedToken _ _ (some _) => []
  | unexpectedToken _ found none => found.position :: found.displayed
  | endOfInput _ found => [found.position]
  | trailingInput found => found.position :: found.displayed
  | nestingTooDeep found limit => [limit, found.position]
  | rollCount count limit => if exceeds count limit then count :: limit.toList else [count]
  | sideCount sides => [sides]
  | overflow result => [result]
  | exhausted accepted => [accepted]
  | drawOutOfRange value low high => [value, low, high]
  | settings defect => defect.numbers
  | stated .. => []
  | unwritable _ => []

/-- Whether the message of a fault can be written. -/
def isWritable (fault : Fault) : Bool :=
  fault.numbers.all Text.isWritable

/-- The fault that is told: a fault itself, if its message can be written. -/
def told (fault : Fault) : Fault :=
  if fault.isWritable then fault else unwritable fault

theorem told_of_isWritable {fault : Fault} (short : fault.isWritable = true) :
    fault.told = fault :=
  if_pos short

theorem told_of_not_isWritable {fault : Fault} (long : fault.isWritable = false) :
    fault.told = unwritable fault := by
  rw [told, long, if_neg Bool.false_ne_true]

theorem told_eq_or (fault : Fault) : fault.told = fault ∨ fault.told = unwritable fault := by
  cases short : fault.isWritable with
  | true => exact .inl (told_of_isWritable short)
  | false => exact .inr (told_of_not_isWritable short)

theorem unwritable_ne_self (fault : Fault) : unwritable fault ≠ fault := by
  intro same
  have sizes := congrArg sizeOf same
  simp at sizes

/-- A fault is told as it is exactly if its message can be written. -/
theorem told_eq_self_iff {fault : Fault} : fault.told = fault ↔ fault.isWritable = true := by
  cases short : fault.isWritable with
  | true => simp [told_of_isWritable short]
  | false => simp [told_of_not_isWritable short, unwritable_ne_self]

theorem isWritable_overflow (result : Int) :
    (overflow result).isWritable = Text.isWritable result := by
  simp [isWritable, numbers]

/-- The token that a fault of a token sequence found. -/
def found? : Fault → Option Token
  | unexpectedToken _ found _ => some found
  | endOfInput _ found => some found
  | trailingInput found => some found
  | nestingTooDeep found _ => some found
  | _ => none

/-- The place that a fault points at. -/
def position? : Fault → Option Int
  | unexpectedCharacter _ position => some position
  | leadingZero position => some position
  | numberTooLarge _ position => some position
  | stated _ _ position => position
  | fault => fault.found?.map Token.position

end Fault

end DiceNotation
