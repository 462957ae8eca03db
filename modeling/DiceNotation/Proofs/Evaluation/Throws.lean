import DiceNotation.Proofs.Evaluation.Course

/-!
# Throws of dice

A throw draws dice one by one onto a sum. If nothing stops it, it has made as many draws as there
are dice, and the sum has grown by exactly these draws (`Course.dice_completes`). A roll begins a
throw only if its number of dice and its sides keep the rules, and it is recorded, where the rules
ask for it, only if nothing stops the throw (`Course.roll_completes`, `Course.rolls_of_roll_error`).
Nothing is assumed of the source for this.

A source whose answers to requests from one to a number lie between the two throws fair dice
(`Source.FairDice`). Then every draw shows a side of its die, whether the course stops or not
(`Expr.fair_course`).
-/

set_option autoImplicit false

namespace DiceNotation

variable {σ : Type}

namespace Evaluation

/-- What keeps a roll from its first die, said without the order of the checks. -/
theorem rollFault?_eq_none_iff {rules : Rules} {count sides : Int} :
    rollFault? rules count sides = none ↔
      1 ≤ count ∧ (∀ limit ∈ rules.maxDice, count ≤ limit) ∧ 1 ≤ sides := by
  have limited : Fault.exceeds count rules.maxDice = false ↔
      ∀ limit ∈ rules.maxDice, count ≤ limit := by
    cases rules.maxDice <;> simp [Fault.exceeds]
  unfold rollFault?
  rw [← limited]
  split
  · simp only [reduceCtorEq, false_iff]
    omega
  · cases Fault.exceeds count rules.maxDice with
    | true => simp
    | false =>
        simp only [Bool.false_eq_true, if_false]
        split
        · simp only [reduceCtorEq, false_iff]
          omega
        · simp only [true_and, true_iff]
          omega

end Evaluation

namespace Course

variable {source : Source σ} {rules : Rules} {count sides sum total : Int} {remaining : Nat}
  {state : σ}

/-! ## Throws that are not stopped -/

/-- What the draws of a throw onto a sum have done when nothing has stopped it. -/
structure Completes (sides : Int) (remaining : Nat) (sum total : Int) (draws : List Draw) :
    Prop where
  length : draws.length = remaining
  sides : ∀ draw ∈ draws, draw.sides = sides
  grown : total = sum + (draws.map Draw.value).sum
  held : 0 < remaining → Word.Holds total

/-- **A throw that nothing stops has drawn every die onto the sum.** -/
theorem dice_completes (ended : (dice source sides remaining sum state).outcome = .ok total) :
    Completes sides remaining sum total (dice source sides remaining sum state).draws := by
  induction remaining generalizing sum state with
  | zero =>
      cases ended
      exact ⟨rfl, List.forall_mem_nil _, (Int.add_zero _).symm,
        fun impossible => (nomatch impossible)⟩
  | succ remaining ih =>
      rcases answer : source.request 1 sides state with ⟨fault | value, next⟩
      · rw [dice_of_refused answer] at ended
        cases ended
      · by_cases inside : Word.Holds (sum + value)
        · rw [dice_of_answer answer inside] at ended ⊢
          have rest := ih ended
          refine ⟨congrArg Nat.succ rest.length, List.forall_mem_cons.mpr ⟨rfl, rest.sides⟩, ?_, ?_⟩
          · rw [rest.grown]
            simp [behind, Int.add_assoc]
          · intro _
            cases remaining with
            | zero =>
                cases ended
                exact inside
            | succ remaining => exact rest.held (Nat.succ_pos remaining)
        · rw [dice_of_overflow answer inside] at ended
          cases ended

theorem outcome_recorded (count sides : Int) (course : Course σ) :
    (course.recorded count sides).outcome = course.outcome := by
  unfold recorded
  split <;> rfl

theorem draws_recorded (count sides : Int) (course : Course σ) :
    (course.recorded count sides).draws = course.draws := by
  unfold recorded
  split <;> rfl

/-- **A roll that nothing stops keeps the rules**, has thrown its dice, and is the only roll
recorded, if rolls are recorded at all. -/
theorem roll_completes (ended : (roll source rules count sides state).outcome = .ok total) :
    Evaluation.rollFault? rules count sides = none ∧
      Completes sides count.toNat 0 total (roll source rules count sides state).draws ∧
        (roll source rules count sides state).rolls =
          if rules.record then
            [⟨count, sides, (roll source rules count sides state).draws.map Draw.value⟩]
          else [] := by
  rw [Evaluation.course_roll_eq] at ended ⊢
  cases fault : Evaluation.rollFault? rules count sides with
  | some fault =>
      rw [fault] at ended
      cases ended
  | none =>
      simp only [fault] at ended ⊢
      cases record : rules.record with
      | true =>
          simp only [record, if_true, outcome_recorded] at ended
          have completes := dice_completes ended
          simp only [if_true]
          rw [draws_recorded]
          exact ⟨trivial, completes, by simp [recorded, ended]⟩
      | false =>
          simp only [record] at ended
          exact ⟨trivial, dice_completes ended, rolls_dice⟩

theorem rolls_of_roll_error {halt : Halt}
    (stops : (roll source rules count sides state).outcome = .error halt) :
    (roll source rules count sides state).rolls = [] := by
  rw [Evaluation.course_roll_eq] at stops ⊢
  split
  · rfl
  · rename_i fault
    simp only [fault] at stops
    split
    · rename_i record
      simp only [record, if_true, outcome_recorded] at stops
      simp [recorded, stops, rolls_dice]
    · exact rolls_dice

end Course

/-! ## Fair dice -/

/-- Every answer to a request from one to a number of sides is a side. -/
def Source.FairDice (source : Source σ) : Prop :=
  ∀ (sides value : Int) (state : σ), 1 ≤ sides →
    (source.request 1 sides state).1 = .ok value → 1 ≤ value ∧ value ≤ sides

theorem Source.Fair.fairDice {source : Source σ} (fair : source.Fair) : source.FairDice :=
  fun sides value state => fair 1 sides value state

namespace Course

/-- Every draw shows a side of its die. -/
def Fair (course : Course σ) : Prop :=
  ∀ draw ∈ course.draws, 1 ≤ draw.value ∧ draw.value ≤ draw.sides

variable {source : Source σ} {rules : Rules} {count sides sum : Int} {remaining : Nat} {state : σ}

theorem fair_dice (fair : source.FairDice) (sided : 1 ≤ sides) :
    Fair (dice source sides remaining sum state) := by
  induction remaining generalizing sum state with
  | zero => exact List.forall_mem_nil _
  | succ remaining ih =>
      rcases answer : source.request 1 sides state with ⟨fault | value, next⟩
      · rw [dice_of_refused answer]
        exact List.forall_mem_nil _
      · have first : 1 ≤ value ∧ value ≤ sides := fair sides value state sided (by rw [answer])
        by_cases inside : Word.Holds (sum + value)
        · rw [dice_of_answer answer inside]
          exact List.forall_mem_cons.mpr ⟨first, ih⟩
        · rw [dice_of_overflow answer inside]
          exact List.forall_mem_cons.mpr ⟨first, List.forall_mem_nil _⟩

theorem fair_roll (fair : source.FairDice) : Fair (roll source rules count sides state) := by
  rw [Evaluation.course_roll_eq]
  split
  · exact List.forall_mem_nil _
  · rename_i sound
    have sided := (Evaluation.rollFault?_eq_none_iff.mp sound).2.2
    split
    · rw [Fair, draws_recorded]
      exact fair_dice fair sided
    · exact fair_dice fair sided

theorem Fair.andThen {course : Course σ} {next : Int → σ → Course σ} (before : Fair course)
    (after : ∀ value state, Fair (next value state)) : Fair (course.andThen next) := by
  unfold Course.andThen
  split
  · exact before
  · exact List.forall_mem_append.mpr ⟨before, after _ _⟩

theorem fair_result (value : Int) (state : σ) : Fair (result value state) := by
  unfold result
  split <;> exact List.forall_mem_nil _

end Course

/-- **A source that throws fair dice lets every draw of an expression show a side of its die.** -/
theorem Expr.fair_course {source : Source σ} (fair : source.FairDice) (rules : Rules) (tree : Expr)
    (state : σ) : (tree.course source rules state).Fair :=
  tree.course_holds Course.Fair (fun _ _ => List.forall_mem_nil _) Course.fair_result
    (fun _ _ _ => Course.fair_roll fair) Course.Fair.andThen state

end DiceNotation
