import DiceNotation.Answer

/-!
# The members of an answer

An answer is an object, and a client looks at its members by their names. Whether the command
succeeded is the member `ok` of every answer. The answer of a roll that succeeded has its total, and
with all of its details also the expression and the finished rolls; an answer of a failure has the
fault instead, as the member `error`.

A roll may be answered with all of its details or with its total alone. The two answers have the
same members but for the details.
-/

set_option autoImplicit false

namespace DiceNotation

/-- A member of an object. -/
def Json.member? (name : String) : Json → Option Json
  | object members => members.lookup name
  | _ => none

namespace Answer

variable {isDetailed : Bool}

theorem member?_ok_ofRoll (outcome : Except Fault RollResult) :
    (ofRoll isDetailed outcome).member? "ok" = some (.boolean outcome.isOk) := by
  cases outcome with
  | error fault => rfl
  | ok result => cases isDetailed <;> rfl

theorem member?_total_ofRoll (outcome : Except Fault RollResult) :
    (ofRoll isDetailed outcome).member? "total" =
      outcome.toOption.map fun result => .integer result.total := by
  cases outcome with
  | error fault => rfl
  | ok result => cases isDetailed <;> rfl

theorem member?_error_ofRoll (outcome : Except Fault RollResult) :
    (ofRoll isDetailed outcome).member? "error" =
      match outcome with
      | .error fault => some fault.complaint.toJson
      | .ok _ => none := by
  cases outcome with
  | error fault => rfl
  | ok result => cases isDetailed <;> rfl

end Answer

end DiceNotation
