import DiceNotation.Files.Tree

/-!
# Breakdowns

A breakdown is a failure that the program does not report as its own: it ends a run without a code
and without a report. The system may refuse an access, a number may be too long to be read or to be
written, an early host may leave an option without the number that it needs, and the transport of
the service may fail.
-/

set_option autoImplicit false

namespace DiceNotation

/-- Why a run ends without a code. -/
inductive Breakdown
  /-- The system refuses an access. -/
  | refused (refusal : Refusal)
  /-- A settings file holds a whole number that is written with so many digits. -/
  | numeralTooLong (digits : Nat)
  /-- A message would hold a number that has too many digits to be written. -/
  | unwritable
  /-- The host has dropped the value of the option for the seed. -/
  | emptySeed
  /-- The host has dropped the value of the option for the limit of dice, and a roll is held against
  it. -/
  | emptyMaxDice
  /-- The transport of the service has failed. -/
  | transportFailed
deriving DecidableEq

/-- What the program says of a breakdown outside its own reports. -/
def Breakdown.message : Breakdown → String
  | refused refusal => s!"cannot use {refusal.path.display}"
  | numeralTooLong digits => s!"a number in the settings has {digits} digits"
  | unwritable => "a number has too many digits to be written"
  | emptySeed => "the seed has no value"
  | emptyMaxDice => "the limit of dice has no value"
  | transportFailed => "the transport has failed"

end DiceNotation
