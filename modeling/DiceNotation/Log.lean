import DiceNotation.Evaluation

/-!
# The log

The log tells what happened, in order: every number drawn, every failed roll of the service, and
the limits with which the service starts. Each entry is one line that begins with the part of the
program it comes from.
-/

set_option autoImplicit false

namespace DiceNotation

/-- An entry of the log. -/
inductive LogEntry
  | draw (draw : Draw)
  | serving (maxDice : Option Int) (maxDepth : Nat)
  | rollFailed (text : String) (fault : Fault)
deriving DecidableEq

namespace LogEntry

/-- The line of an entry. -/
def line : LogEntry → String
  | draw entry => s!"droll.interpreter: d{entry.sides} -> {entry.value}"
  | serving (some maxDice) maxDepth =>
    s!"droll.mcp_server: serving with max_dice={maxDice} max_depth={maxDepth}"
  | serving none maxDepth => s!"droll.mcp_server: serving with max_dice=None max_depth={maxDepth}"
  | rollFailed text fault =>
    s!"droll.mcp_server: roll {Text.quoted text} failed: {fault.message}"

/-- The entries of the draws that a table has seen. -/
def ofTable {σ : Type} (table : Table σ) : List LogEntry :=
  table.draws.toList.map draw

end LogEntry

end DiceNotation
