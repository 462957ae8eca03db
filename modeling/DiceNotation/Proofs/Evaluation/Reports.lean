import DiceNotation.Dice.Twister
import DiceNotation.Proofs.Evaluation.Recording
import DiceNotation.Proofs.Evaluation.Throws
import DiceNotation.Proofs.Reading.Literals

/-!
# What a failed roll reports

The evaluator cannot report a number with too many digits to be written, and an expression can be
made by hand that has such a number. An expression that is read from a text has none, if its dice
are fair: a node is computed from values in the range of a word, so a result that leaves the range
is at most twice as far from zero (`Text.isWritable_of_close`), and a number of dice or of sides is
a value. A source that answers every request adds no fault of its own. So the course of such an
expression ends in a value in range, or in a halt that can be told (`Expr.told_course`).

A refusal also tells the limit of dice, which is not part of the text. It is less than the number of
dice, so it can be written unless it is far below zero (`Limits.CanBeTold`). The faults of the
reading point into the text. Together this says what a roll of a notation on the generator can
report (`Fault.IsTold`, `rollDetailed_told`).
-/

set_option autoImplicit false

namespace DiceNotation

/-- A source answers every request from one to a number of sides. -/
def Source.Answers {σ : Type} (source : Source σ) : Prop :=
  ∀ (sides : Int) (state : σ), 1 ≤ sides → ∃ value, (source.request 1 sides state).1 = .ok value

theorem Twister.answers_source : Twister.source.Answers := by
  intro sides state _
  simp only [Twister.source, Twister.request]
  exact ⟨_, rfl⟩

/-- A number that is at most twice as far from zero as one in range can be written. -/
theorem Text.isWritable_of_close {value : Int} (low : 2 * Word.least ≤ value)
    (high : value ≤ -(2 * Word.least)) : Text.isWritable value = true := by
  have small : value.natAbs < 10 ^ 20 := by
    simp only [Word.least] at low high
    omega
  have digits (count : Nat) (many : 20 ≤ count) : value.natAbs < Nat.pow 10 count :=
    Nat.lt_of_lt_of_le small (Nat.pow_le_pow_right (by decide) many)
  rw [isWritable, decide_eq_true_eq]
  exact digits maxDigits (by decide)

/-- A number in the range of a word can be written. -/
theorem Text.isWritable_of_holds {value : Int} (held : Word.Holds value) :
    isWritable value = true := by
  rw [Word.holds_iff] at held
  refine isWritable_of_close ?_ ?_ <;>
    · simp only [Word.least]
      omega

/-- A halt is a result out of range that can be written, or a roll that must not begin because of
one of its numbers, which are in range. If a limit of dice is told, it is the one in force. -/
inductive Halt.IsTold (maxDice : Option Int) : Halt → Prop
  | overflow {result : Int} : Text.isWritable result = true → IsTold maxDice (.overflow result)
  | count {count : Int} {limit : Option Int} : Word.Holds count → limit = none ∨ limit = maxDice →
      IsTold maxDice (.invalid (.rollCount count limit))
  | sides {sides : Int} : Word.Holds sides → IsTold maxDice (.invalid (.sideCount sides))

variable {σ : Type}

/-! ## Courses -/

namespace Course

/-- A course ends in a value in range, or in a halt that can be told. -/
def IsTold (maxDice : Option Int) (course : Course σ) : Prop :=
  match course.outcome with
  | .ok value => Word.Holds value
  | .error halt => halt.IsTold maxDice

variable {maxDice : Option Int} {source : Source σ} {rules : Rules} {count sides sum : Int}
  {remaining : Nat} {state : σ}

theorem told_result {value : Int} (low : 2 * Word.least ≤ value) (high : value ≤ -(2 * Word.least))
    (state : σ) : IsTold maxDice (result value state) := by
  unfold result
  split
  · rename_i inside
    exact inside
  · exact .overflow (Text.isWritable_of_close low high)

/-- **Throwing fair dice onto a sum in range can be told.** -/
theorem told_dice (fair : source.FairDice) (answers : source.Answers) (one : 1 ≤ sides)
    (bound : sides ≤ Word.greatest) (held : Word.Holds sum) :
    IsTold maxDice (dice source sides remaining sum state) := by
  induction remaining generalizing sum state with
  | zero => exact held
  | succ remaining ih =>
      obtain ⟨value, answered⟩ := answers sides state one
      obtain ⟨low, high⟩ := fair sides value state one answered
      have answer : source.request 1 sides state = (.ok value, (source.request 1 sides state).2) :=
        Prod.ext answered rfl
      by_cases inside : Word.Holds (sum + value)
      · rw [dice_of_answer answer inside]
        exact ih inside
      · rw [dice_of_overflow answer inside]
        rw [Word.holds_iff] at held
        refine .overflow (Text.isWritable_of_close ?_ ?_) <;>
          · simp only [Word.least, Word.greatest] at bound ⊢
            omega

theorem told_roll (fair : source.FairDice) (answers : source.Answers) (few : Word.Holds count)
    (held : Word.Holds sides) :
    IsTold rules.maxDice (roll source rules count sides state) := by
  rw [Evaluation.course_roll_eq]
  cases fault : Evaluation.rollFault? rules count sides with
  | some fault' =>
      unfold Evaluation.rollFault? at fault
      split at fault
      · cases fault
        exact .count few (.inl rfl)
      · split at fault
        · cases fault
          exact .count few (.inr rfl)
        · split at fault
          · cases fault
            exact .sides held
          · cases fault
  | none =>
      have sided := (Evaluation.rollFault?_eq_none_iff.mp fault).2.2
      have thrown : IsTold rules.maxDice (dice source sides count.toNat 0 state) :=
        told_dice fair answers sided held.2 (by decide)
      cases rules.record with
      | true =>
          simp only [if_true, IsTold, outcome_recorded]
          exact thrown
      | false => exact thrown

/-- A course that is continued from a value in range can be told if the continuation can. -/
theorem IsTold.andThen {course : Course σ} {next : Int → σ → Course σ}
    (before : IsTold maxDice course)
    (after : ∀ value, Word.Holds value → ∀ state, IsTold maxDice (next value state)) :
    IsTold maxDice (course.andThen next) := by
  unfold IsTold at before
  unfold Course.andThen
  cases ended : course.outcome with
  | error halt =>
      rw [ended] at before
      simpa only [IsTold, ended] using before
  | ok value =>
      rw [ended] at before
      exact after value before course.source

end Course

/-- **The course of an expression can be told**, if its literals are in range and its dice are fair
and always answer. -/
theorem Expr.told_course {source : Source σ} (fair : source.FairDice) (answers : source.Answers)
    (rules : Rules) (tree : Expr) (literals : tree.LiteralsHold) :
    ∀ state : σ, (tree.course source rules state).IsTold rules.maxDice := by
  induction tree with
  | literal value => exact fun _ => literals
  | unary sign operand ih =>
      cases sign with
      | identity => exact ih literals
      | negate =>
          intro state
          refine (ih literals state).andThen fun value held => Course.told_result ?_ ?_ <;>
            · rw [Word.holds_iff] at held
              simp only [Word.least]
              omega
  | binary operation left right ihLeft ihRight =>
      intro state
      refine (ihLeft literals.1 state).andThen fun first heldFirst state =>
        (ihRight literals.2 state).andThen fun second heldSecond => ?_
      cases operation with
      | roll isImplicit => exact fun state => Course.told_roll fair answers heldFirst heldSecond
      | add | subtract =>
          refine Course.told_result ?_ ?_ <;>
            · rw [Word.holds_iff] at heldFirst heldSecond
              simp only [Word.least]
              omega

/-! ## Faults -/

/-- A limit of dice that is less than a number in range can be told. -/
def Limits.CanBeTold (maxDice : Option Int) : Prop :=
  ∀ limit ∈ maxDice, Text.isWritable limit = true ∨ 1 ≤ limit

/-- A fault points into the text, or it refuses a roll, or it is a result out of range; what it
tells can be written. If a limit of dice is told, it is the one in force. -/
inductive Fault.IsTold (maxDice : Option Int) : Fault → Prop
  | placed {fault : Fault} (position : Int) : fault.position? = some position → IsTold maxDice fault
  | rollCount {count : Int} {limit : Option Int} : limit = none ∨ limit = maxDice →
      (Fault.rollCount count limit).isWritable = true → IsTold maxDice (.rollCount count limit)
  | sideCount {sides : Int} : Text.isWritable sides = true → IsTold maxDice (.sideCount sides)
  | overflow {result : Int} : Text.isWritable result = true → IsTold maxDice (.overflow result)

variable {maxDice : Option Int}

/-- **A fault that can be told has no other fault in its place.** -/
theorem Fault.IsTold.ne_unwritable {fault : Fault} (told : fault.IsTold maxDice) (cause : Fault) :
    fault ≠ .unwritable cause := by
  rintro rfl
  rcases told with ⟨position, placed⟩
  cases placed

/-- A refusal of a number of dice in range can be written if the limit can be told. -/
theorem Fault.isWritable_rollCount {count : Int} {limit : Option Int} (held : Word.Holds count)
    (inForce : limit = none ∨ limit = maxDice) (limited : Limits.CanBeTold maxDice) :
    (Fault.rollCount count limit).isWritable = true := by
  have counted := Text.isWritable_of_holds held
  rw [Fault.isWritable, Fault.numbers, Fault.exceeds.eq_def]
  rcases inForce with rfl | rfl
  · simp [counted]
  · cases limit with
    | none => simp [counted]
    | some limit =>
        by_cases beyond : limit < count
        · have told : Text.isWritable limit = true := by
            rcases limited limit rfl with written | one
            · exact written
            · have bound := held.2
              exact Text.isWritable_of_holds ⟨by simp only [Word.least]; omega, by omega⟩
          simp [beyond, counted, told]
        · simp [beyond, counted]

theorem Halt.IsTold.reported {halt : Halt} (told : halt.IsTold maxDice)
    (limited : Limits.CanBeTold maxDice) : halt.reported.IsTold maxDice := by
  cases told with
  | overflow written =>
      rw [Halt.reported, Fault.told_of_isWritable (by rwa [Fault.isWritable_overflow])]
      exact .overflow written
  | count held inForce =>
      have written := Fault.isWritable_rollCount held inForce limited
      rw [Halt.reported, Fault.told_of_isWritable written]
      exact .rollCount inForce written
  | @sides sides held =>
      have written := Text.isWritable_of_holds held
      have shown : (Fault.sideCount sides).isWritable = true := by
        simpa [Fault.isWritable, Fault.numbers] using written
      rw [Halt.reported, Fault.told_of_isWritable shown]
      exact .sideCount written

/-- **A result out of range is always told**, whatever the limit of dice is. -/
theorem Halt.IsTold.reported_ne_unwritable_overflow {halt : Halt} (told : halt.IsTold maxDice)
    (result : Int) : halt.reported ≠ .unwritable (.overflow result) := by
  have kept {fault : Fault} (same : fault.told = .unwritable (.overflow result))
      (other : ∀ cause, fault ≠ .unwritable cause) :
      fault = .overflow result ∧ fault.isWritable = false := by
    rcases fault.told_eq_or with itself | cause
    · exact absurd (itself.symm.trans same) (other _)
    · have overflows := Fault.unwritable.inj (cause.symm.trans same)
      refine ⟨overflows, Bool.eq_false_iff.mpr fun written => ?_⟩
      exact other _ ((Fault.told_of_isWritable written).symm.trans same)
  intro same
  cases told with
  | @overflow value written =>
      have long := (kept same nofun).2
      rw [Fault.isWritable_overflow, written] at long
      cases long
  | count _ _ => cases (kept same nofun).1
  | sides _ => cases (kept same nofun).1

/-- The fault of a text that cannot be read points into the text. -/
theorem Expr.told_parse {text : String} {limit : DepthLimit} {fault : Fault}
    (fails : Expr.parse text limit = .error fault) : fault.IsTold maxDice := by
  obtain ⟨front, _, _, place, _⟩ := exists_lexeme_of_fault fails
  exact .placed front.length place

/-- A roll of a notation fails because the text cannot be read, or because the course of its
expression halts. -/
theorem rollDetailed_halts {source : Source σ} (fair : source.FairDice) (answers : source.Answers)
    {state : σ} {limits : Limits} {text : String} {fault : Fault}
    (fails : (rollDetailed source state limits text).outcome = .error fault) :
    Expr.parse text limits.maxDepth = .error fault ∨
      ∃ halt : Halt, halt.IsTold limits.maxDice ∧ fault = halt.reported := by
  unfold rollDetailed play at fails
  cases read : Expr.parse text limits.maxDepth with
  | error other =>
      simp only [read, Except.map, Except.error.injEq] at fails
      rw [fails]
      exact .inl rfl
  | ok tree =>
      have told := tree.told_course fair answers ⟨true, limits.maxDice⟩
        (Expr.literalsHold_of_parse read) state
      simp only [read, Table.evaluate_eq] at fails
      unfold Course.IsTold at told
      cases ended : (tree.course source ⟨true, limits.maxDice⟩ state).outcome with
      | ok total =>
          simp only [ended, Except.mapError, Except.map] at fails
          cases fails
      | error halt =>
          rw [ended] at told
          simp only [ended, Except.mapError, Except.map, Except.error.injEq] at fails
          exact .inr ⟨halt, told, fails.symm⟩

/-- **What a roll of a notation reports can be told**, if its dice are fair and always answer and
its limit of dice can be told. -/
theorem rollDetailed_told {source : Source σ} (fair : source.FairDice) (answers : source.Answers)
    {state : σ} {limits : Limits} (limited : Limits.CanBeTold limits.maxDice) {text : String}
    {fault : Fault} (fails : (rollDetailed source state limits text).outcome = .error fault) :
    fault.IsTold limits.maxDice := by
  rcases rollDetailed_halts fair answers fails with unread | ⟨halt, told, rfl⟩
  · exact Expr.told_parse unread
  · exact told.reported limited

/-- **A roll of a notation always tells a result out of range.** -/
theorem rollDetailed_ne_unwritable_overflow {source : Source σ} (fair : source.FairDice)
    (answers : source.Answers) {state : σ} {limits : Limits} {text : String} {fault : Fault}
    (fails : (rollDetailed source state limits text).outcome = .error fault) (result : Int) :
    fault ≠ .unwritable (.overflow result) := by
  rcases rollDetailed_halts fair answers fails with unread | ⟨halt, told, rfl⟩
  · have pointing : fault.IsTold none := Expr.told_parse unread
    exact pointing.ne_unwritable _
  · exact told.reported_ne_unwritable_overflow result

end DiceNotation
