/-!
# The range of a result

Numbers are exact integers, and every number that an evaluation computes stays in the range of a
signed 64-bit word. A number outside it is reported and never wrapped.
-/

set_option autoImplicit false

namespace DiceNotation.Word

/-- The greatest number in range, `2 ^ 63 - 1`. It is also the greatest number one can write. -/
def greatest : Int := 9223372036854775807

/-- The least number in range, `-2 ^ 63`. -/
def least : Int := -9223372036854775808

/-- A number is in range. -/
def Holds (value : Int) : Prop :=
  least ≤ value ∧ value ≤ greatest

instance (value : Int) : Decidable (Holds value) :=
  inferInstanceAs (Decidable (_ ∧ _))

theorem holds_iff {value : Int} :
    Holds value ↔ -9223372036854775808 ≤ value ∧ value ≤ 9223372036854775807 :=
  Iff.rfl

/-- There is one number more below zero than above it. -/
theorem least_eq : least = -greatest - 1 := rfl

end DiceNotation.Word
