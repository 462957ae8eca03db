/-!
# Nesting limits

Every operator that waits for an operand opens a level, and a reader refuses to open more levels
than its limit. A limit is at least one. How great it may be depends on how deep the calls of the
program may nest: a level takes two of them, and some are kept for whatever calls the reader.
-/

set_option autoImplicit false

namespace DiceNotation

/-- How many levels an expression may open. -/
structure DepthLimit where
  levels : Nat
  one_le : 1 ≤ levels := by decide

namespace DepthLimit

/-- The limit in force where none is given. -/
def standard : DepthLimit where
  levels := 200

/-- The greatest limit for a number of calls that may nest. -/
def greatest (calls : Nat) : Nat :=
  max 1 ((calls - 200) / 2)

@[ext]
theorem ext {limit other : DepthLimit} (h : limit.levels = other.levels) : limit = other := by
  cases limit
  cases other
  cases h
  rfl

instance : DecidableEq DepthLimit := fun limit other =>
  decidable_of_iff (limit.levels = other.levels) ⟨ext, fun h => h ▸ rfl⟩

/-- The limit of a number of levels, if it is one and not above the greatest. -/
def ofInt? (greatest : Nat) (levels : Int) : Option DepthLimit :=
  if h : 1 ≤ levels ∧ levels ≤ greatest then some ⟨levels.toNat, by omega⟩ else none

theorem ofInt?_levels {limit : DepthLimit} {greatest : Nat} (low : limit.levels ≤ greatest) :
    ofInt? greatest limit.levels = some limit := by
  have one := limit.one_le
  have h : 1 ≤ (limit.levels : Int) ∧ (limit.levels : Int) ≤ greatest := by omega
  rw [ofInt?, dif_pos h]
  exact congrArg some (ext rfl)

end DepthLimit

end DiceNotation
