import DiceNotation.Proofs.Evaluation.DiceLimit
import DiceNotation.Proofs.Evaluation.Recording
import DiceNotation.Proofs.Reading.DieMarks

/-!
# How many requests a roll makes

All requests of a course are made by its rolls. A roll that is reached makes some number of them,
which is none if it must not begin, and less than its number of dice if it is stopped on the way.
The numbers of all rolls reached (`Expr.thrown`) add up to the number of requests of the course
(`Expr.sum_thrown`), whether it stops or not.

A limit of dice bounds each of these numbers (`Expr.thrown_le`), and there are no more of them than
the expression has rolls (`Expr.length_thrown_le`). So the requests of a course are bounded by the
product (`Expr.length_requests_le`). Nothing is assumed of the source.
-/

set_option autoImplicit false

namespace DiceNotation

variable {σ : Type}

/-- The numbers of requests that the rolls make which the course of an expression reaches. -/
def Expr.thrown (source : Source σ) (rules : Rules) : Expr → σ → List Int
  | literal _ => fun _ => []
  | unary _ operand => operand.thrown source rules
  | binary operation left right => fun state =>
    left.thrown source rules state ++
      (left.course source rules state).onward fun first state =>
        right.thrown source rules state ++
          (right.course source rules state).onward fun second state =>
            match operation with
            | .roll _ => [((Course.roll source rules first second state).requests.length : Int)]
            | _ => []

namespace Course

variable {source : Source σ} {rules : Rules} {sides sum : Int} {remaining : Nat} {state : σ}

/-- A course continued from its value makes its own requests and those of the continuation. -/
theorem length_requests_andThen {course : Course σ} {next : Int → σ → Course σ}
    {behind : Int → σ → List Int}
    (counted : ∀ value state, (behind value state).sum = (next value state).requests.length) :
    (course.requests.length : Int) + (course.onward behind).sum =
      (course.andThen next).requests.length := by
  unfold andThen onward
  cases course.outcome with
  | error halt => simp
  | ok value => simp [counted]

theorem requests_result (value : Int) (state : σ) : (result value state).requests = [] := by
  unfold result
  split <;> rfl

theorem requests_recorded (count sides : Int) (course : Course σ) :
    (course.recorded count sides).requests = course.requests := by
  unfold recorded
  split <;> rfl

/-- A throw makes at most one request for every die. -/
theorem length_requests_dice_le :
    (dice source sides remaining sum state).requests.length ≤ remaining := by
  induction remaining generalizing sum state with
  | zero => exact Nat.le_refl 0
  | succ remaining ih =>
      rcases answer : source.request 1 sides state with ⟨fault | value, next⟩
      · rw [dice_of_refused answer]
        exact Nat.succ_le_succ (Nat.zero_le remaining)
      · by_cases inside : Word.Holds (sum + value)
        · rw [dice_of_answer answer inside]
          exact Nat.succ_le_succ ih
        · rw [dice_of_overflow answer inside]
          exact Nat.succ_le_succ (Nat.zero_le remaining)

/-- **A roll makes no more requests than the limit has dice.** -/
theorem length_requests_roll_le {limit : Int} (limited : rules.maxDice = some limit)
    (positive : 0 ≤ limit) (count sides : Int) (state : σ) :
    ((roll source rules count sides state).requests.length : Int) ≤ limit := by
  rw [Evaluation.course_roll_eq]
  cases fault : Evaluation.rollFault? rules count sides with
  | some fault => exact positive
  | none =>
      obtain ⟨_, within, _⟩ := Evaluation.rollFault?_eq_none_iff.mp fault
      have few : count ≤ limit := within limit limited
      have thrown : (dice source sides count.toNat 0 state).requests.length ≤ count.toNat :=
        length_requests_dice_le
      cases rules.record with
      | true =>
          simp only [if_true, requests_recorded]
          omega
      | false =>
          simp only [Bool.false_eq_true, if_false]
          omega

theorem forall_mem_onward {course : Course σ} {behind : Int → σ → List Int} {holds : Int → Prop}
    (each : ∀ value state, ∀ number ∈ behind value state, holds number) :
    ∀ number ∈ course.onward behind, holds number := by
  unfold onward
  split
  · exact List.forall_mem_nil _
  · exact each _ _

theorem length_onward_le {course : Course σ} {behind : Int → σ → List Int} {bound : Nat}
    (each : ∀ value state, (behind value state).length ≤ bound) :
    (course.onward behind).length ≤ bound := by
  unfold onward
  split
  · exact Nat.zero_le bound
  · exact each _ _

end Course

namespace Expr

variable {source : Source σ} {rules : Rules}

/-- **All requests are made by rolls.** -/
theorem sum_thrown (source : Source σ) (rules : Rules) (tree : Expr) :
    ∀ state : σ, (tree.thrown source rules state).sum =
      (tree.course source rules state).requests.length := by
  induction tree with
  | literal value => exact fun _ => rfl
  | unary sign operand ih =>
      cases sign with
      | identity => exact ih
      | negate =>
          intro state
          have silent (value : Int) (state : σ) :
              ([] : List Int).sum = (Course.result (-value) state).requests.length := by
            rw [Course.requests_result]
            rfl
          have whole := (operand.course source rules state).length_requests_andThen silent
          rw [Course.onward_nil, List.sum_nil, Int.add_zero] at whole
          exact (ih state).trans whole
  | binary operation left right ihLeft ihRight =>
      intro state
      -- the operands are counted, whatever the node does with their values
      have counted (behind : Int → Int → σ → List Int) (next : Int → Int → σ → Course σ)
          (node : ∀ first second state,
            (behind first second state).sum = (next first second state).requests.length) :
          (left.thrown source rules state ++ (left.course source rules state).onward
            fun first state => right.thrown source rules state ++
              (right.course source rules state).onward (behind first)).sum =
          ((left.course source rules state).andThen fun first state =>
            (right.course source rules state).andThen (next first)).requests.length := by
        rw [List.sum_append, ihLeft]
        refine Course.length_requests_andThen fun first state => ?_
        rw [List.sum_append, ihRight]
        exact Course.length_requests_andThen (node first)
      cases operation with
      | add | subtract =>
          refine counted _ _ fun first second state => ?_
          rw [Course.requests_result]
          rfl
      | roll isImplicit => exact counted _ _ fun first second state => Int.add_zero _

/-- **No roll makes more requests than the limit has dice.** -/
theorem thrown_le (source : Source σ) {limit : Int} (limited : rules.maxDice = some limit)
    (positive : 0 ≤ limit) (tree : Expr) :
    ∀ state : σ, ∀ number ∈ tree.thrown source rules state, number ≤ limit := by
  induction tree with
  | literal value => exact fun _ => List.forall_mem_nil _
  | unary sign operand ih => exact ih
  | binary operation left right ihLeft ihRight =>
      refine fun state => List.forall_mem_append.mpr ⟨ihLeft state, ?_⟩
      refine Course.forall_mem_onward fun first state => ?_
      refine List.forall_mem_append.mpr ⟨ihRight state, ?_⟩
      refine Course.forall_mem_onward fun second state => ?_
      cases operation with
      | add | subtract => exact List.forall_mem_nil _
      | roll isImplicit =>
          exact List.forall_mem_singleton.mpr
            (Course.length_requests_roll_le limited positive first second state)

/-- **No more rolls are reached than the expression has.** -/
theorem length_thrown_le (source : Source σ) (rules : Rules) (tree : Expr) :
    ∀ state : σ, (tree.thrown source rules state).length ≤ tree.rollCount := by
  induction tree with
  | literal value => exact fun _ => Nat.le_refl 0
  | unary sign operand ih => exact ih
  | binary operation left right ihLeft ihRight =>
      intro state
      simp only [thrown, rollCount, List.length_append]
      refine Nat.add_le_add (ihLeft state) (Course.length_onward_le fun first state => ?_)
      rw [List.length_append]
      refine Nat.add_le_add (ihRight state) (Course.length_onward_le fun second state => ?_)
      cases operation <;> exact Nat.le_refl _

/-- **A course makes no more requests than the limit has dice, for each roll of its expression.** -/
theorem length_requests_le {limit : Int} (limited : rules.maxDice = some limit)
    (positive : 0 ≤ limit) (tree : Expr) (state : σ) :
    ((tree.course source rules state).requests.length : Int) ≤ limit * tree.rollCount := by
  have each := List.sum_le_card_nsmul _ limit (tree.thrown_le source limited positive state)
  have few := tree.length_thrown_le source rules state
  calc ((tree.course source rules state).requests.length : Int)
      = (tree.thrown source rules state).sum := (tree.sum_thrown source rules state).symm
    _ ≤ limit * (tree.thrown source rules state).length := by
        rwa [nsmul_eq_mul, Int.mul_comm] at each
    _ ≤ limit * tree.rollCount := by
        exact Int.mul_le_mul_of_nonneg_left (by exact_mod_cast few) positive

end Expr

/-! ## Rolls of a notation -/

/-- The numbers of requests that the rolls make which a notation reaches. A notation that cannot be
read reaches none. -/
def thrownRolls (source : Source σ) (state : σ) (limits : Limits) (text : String) : List Int :=
  match Expr.parse text limits.maxDepth with
  | .error _ => []
  | .ok tree => tree.thrown source ⟨true, limits.maxDice⟩ state

variable {source : Source σ} {state : σ} {limits : Limits} {text : String} {limit : Int}

/-- A source that writes down its requests has been asked those of the rolls. -/
theorem sum_thrownRolls : (thrownRolls source state limits text).sum =
    ((rollDetailed source.logged (state, []) limits text).asked.length : Int) := by
  have asked := asked_play source state ⟨true, limits.maxDice⟩ limits.maxDepth text
  have same : (rollDetailed source.logged (state, []) limits text).asked =
      (play source.logged (state, []) ⟨true, limits.maxDice⟩ limits.maxDepth text).asked := rfl
  rw [same, asked]
  unfold thrownRolls
  cases Expr.parse text limits.maxDepth with
  | error fault => rfl
  | ok tree =>
      simp only [List.length_map]
      exact tree.sum_thrown source ⟨true, limits.maxDice⟩ state

theorem thrownRolls_le (limited : limits.maxDice = some limit) (positive : 0 ≤ limit) :
    ∀ number ∈ thrownRolls source state limits text, number ≤ limit := by
  unfold thrownRolls
  cases Expr.parse text limits.maxDepth with
  | error fault => exact List.forall_mem_nil _
  | ok tree => exact tree.thrown_le source limited positive state

/-- **A roll of a notation makes no more requests than the limit has dice, for each die mark.** This
is so whether the roll succeeds or not. -/
theorem length_asked_le (limited : limits.maxDice = some limit) (positive : 0 ≤ limit) :
    ((rollDetailed source.logged (state, []) limits text).asked.length : Int) ≤
      limit * Text.dieMarks text := by
  rw [← sum_thrownRolls]
  unfold thrownRolls
  cases read : Expr.parse text limits.maxDepth with
  | error fault => exact Int.mul_nonneg positive (Int.natCast_nonneg _)
  | ok tree =>
      have marks : (tree.rollCount : Int) ≤ Text.dieMarks text := by
        exact_mod_cast Expr.rollCount_le_of_parse read
      simp only
      rw [tree.sum_thrown]
      exact (tree.length_requests_le limited positive state).trans
        (Int.mul_le_mul_of_nonneg_left marks positive)

end DiceNotation
