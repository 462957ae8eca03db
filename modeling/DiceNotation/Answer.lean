import DiceNotation.Report
import DiceNotation.Roll

/-!
# Answers

The command line and the service give the same answers: an object that names the command and says
whether it succeeded, with either what it found or the failure.
-/

set_option autoImplicit false

namespace DiceNotation.Answer

/-- The answer of a command that failed. -/
def failure (command : String) (fault : Fault) : Json :=
  .object [("command", .text command), ("ok", .boolean false),
    ("error", fault.complaint.toJson)]

/-- The answer of a roll with all of its details. -/
def detailed (result : RollResult) : Json :=
  .object (("command", .text "roll") :: ("ok", .boolean true) :: result.members)

/-- The answer of a roll with its total alone. -/
def brief (result : RollResult) : Json :=
  .object [("command", .text "roll"), ("ok", .boolean true), ("notation", .text result.text),
    ("total", .integer result.total)]

/-- The answer of a roll. -/
def ofRoll (isDetailed : Bool) : Except Fault RollResult → Json
  | .error fault => failure "roll" fault
  | .ok result => if isDetailed then detailed result else brief result

/-- The answer of the reading of a notation. -/
def ofParse (text : String) : Except Fault Expr → Json
  | .error fault => failure "parse" fault
  | .ok tree =>
    .object [("command", .text "parse"), ("ok", .boolean true), ("notation", .text text),
      ("tree", .text tree.render)]

end DiceNotation.Answer
