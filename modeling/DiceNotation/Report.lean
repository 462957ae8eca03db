import DiceNotation.Fault
import DiceNotation.Json
import DiceNotation.Text.Blank

/-!
# Reports

A failure is shown to a person as a report: one line with its message, where a notation is at hand
and the failure points into it the notation with a caret under the place, and a hint where there is
advice to give. To a program it is given as an object with its kind, its message and its position.

A complaint is what both need to know of a failure. Every fault makes one.
-/

set_option autoImplicit false

namespace DiceNotation

/-- What a report tells of a failure. The label stands in for a message that is empty. -/
structure Complaint where
  kind : String
  message : String
  label : String
  position : Option Int := none
  hint : Option String := none

/-- A list of characters occurs within another. -/
def occursIn (part : List Char) : List Char → Bool
  | [] => part.isEmpty
  | c :: rest => part.isPrefixOf (c :: rest) || occursIn part rest

/-- The hint for a message about the settings: a file was looked for and not found. Letter case is
ignored in the word for finding; beyond ASCII no letter has a lower case that could be part of
it. -/
def settingsHint? (message : String) : Option String :=
  if occursIn "droll.toml".toList message.toList &&
      occursIn "find".toList (message.toList.map Char.toLower) then
    some "pass --config or create droll.toml with `version = 1`"
  else none

namespace Fault

/-- The advice that goes with a fault. -/
def hint? : Fault → Option String
  | unexpectedCharacter .. => some "dice notation only uses digits, `d`, `+`, `-` and spaces"
  | leadingZero .. => some "numbers cannot start with 0; write `1d6`, not `01d6`"
  | endOfInput .. => some "every operator needs a number or roll after it, e.g. `1d6`"
  | trailingInput .. => some "join terms with `+` or `-`, e.g. `1d6 + 2`"
  | nestingTooDeep .. => some "split the expression or raise parser.max_depth in droll.toml"
  | rollCount count limit =>
    if exceeds count limit then some "raise roll.max_dice in droll.toml or roll fewer dice"
    else some "the number of dice must evaluate to at least 1"
  | sideCount .. => some "a die needs at least one side"
  | settings defect => settingsHint? defect.message
  | stated .configuration message _ => settingsHint? message
  | _ => none

/-- The complaint of a fault. -/
def complaint (fault : Fault) : Complaint where
  kind := fault.kind
  message := fault.message
  label := fault.kind
  position := fault.position?
  hint := fault.hint?

end Fault

namespace Complaint

/-- A notation with a caret under one of its places. -/
def location (text : String) (position : Int) : String :=
  s!"  {text}\n  " ++ String.ofList (List.replicate position.toNat ' ') ++ "^"

/-- The first line of a report. -/
def headline (complaint : Complaint) : String :=
  "error: " ++ Text.trim (if complaint.message.isEmpty then complaint.label else complaint.message)

/-- The lines of a report that follow the first. -/
def details (complaint : Complaint) (text : Option String) : List String :=
  (match text, complaint.position with
    | some text, some position => [location text position]
    | _, _ => []) ++
  (match complaint.hint with
    | some hint => ["hint: " ++ hint]
    | none => [])

/-- A failure as shown to a person, with the notation that failed if there is one. -/
def report (complaint : Complaint) (text : Option String) : String :=
  "\n".intercalate (complaint.headline :: complaint.details text)

/-- A failure as given to a program. -/
def toJson (complaint : Complaint) : Json :=
  .object [("kind", .text complaint.kind), ("message", .text complaint.message),
    ("position", complaint.position.elim .null .integer)]

end Complaint

end DiceNotation
