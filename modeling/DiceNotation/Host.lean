import DiceNotation.DepthLimit
import DiceNotation.Text.Numeral
import DiceNotation.Toml.Problem
import DiceNotation.Toml.Value

/-!
# Hosts

Some of what the program does is left to the interpreter that runs it, its host. The host reads a
text as TOML. It lets calls nest up to a depth, which bounds the nesting limits that a settings file
may ask for; a host has room for the standard limit at least. And it reads the arguments, where an
option can be given two dashes for its value: early hosts drop them, so that the option is left
without a value, and later ones keep them. Nothing else is assumed of a host.
-/

set_option autoImplicit false

namespace DiceNotation

/-- An interpreter that runs the program. -/
structure Host where
  readToml : String → Except Toml.Failure Toml.Table
  /-- How many calls may nest. -/
  calls : Nat := 1000
  /-- Whether two dashes are kept as the value of an option. -/
  keepsDashes : Bool := true
  roomy : 600 ≤ calls := by decide
  calls_le : calls ≤ 2147483647 := by decide

namespace Host

/-- A host that reads TOML in the given way and has room for the usual number of calls. -/
def reading (readToml : String → Except Toml.Failure Toml.Table) : Host where
  readToml

/-- The greatest nesting limit that a host has room for. -/
def greatestDepth (host : Host) : Nat :=
  DepthLimit.greatest host.calls

theorem standard_le_greatestDepth (host : Host) :
    DepthLimit.standard.levels ≤ host.greatestDepth := by
  have roomy := host.roomy
  simp only [DepthLimit.standard, greatestDepth, DepthLimit.greatest]
  omega

theorem isWritable_greatestDepth (host : Host) : Text.isWritable host.greatestDepth = true := by
  have short := host.calls_le
  have bound : host.greatestDepth ≤ 2147483647 := by
    simp only [greatestDepth, DepthLimit.greatest]
    omega
  have many : 2147483647 < Nat.pow 10 Text.maxDigits := by decide +kernel
  simp only [Text.isWritable, Int.natAbs_natCast, decide_eq_true_eq]
  exact Nat.lt_of_le_of_lt bound many

end Host

end DiceNotation
