import DiceNotation.Proofs.Answers.Members
import DiceNotation.Proofs.Evaluation.Course
import DiceNotation.Service

/-!
# Recording has no part in an evaluation

The rules of an evaluation say whether finished rolls are recorded. Forgetting what a course records
(`Course.unrecorded`) leaves the course that is followed when nothing is recorded
(`Expr.course_unrecorded`): it has the same outcome, requests and draws, and leaves the source in
the same state. This is so because forgetting goes through every way in which courses are made, and
nothing that a course does depends on what has been recorded before.

A roll of a notation for its total records nothing, a detailed one records. So they have the same
outcome but for the details, and they put the same requests to the source
(`recording_keeps_outcome`). The service always rolls in detail and leaves the details out of an
answer that does not ask for them.
-/

set_option autoImplicit false

namespace DiceNotation

variable {σ : Type}

namespace Course

/-- A course without the rolls that it records. -/
def unrecorded (course : Course σ) : Course σ :=
  { course with rolls := [] }

theorem unrecorded_andThen {course : Course σ} {next next' : Int → σ → Course σ}
    (same : ∀ value state, next' value state = (next value state).unrecorded) :
    course.unrecorded.andThen next' = (course.andThen next).unrecorded := by
  unfold andThen
  cases ended : course.outcome with
  | error halt => simp [unrecorded, ended]
  | ok value => simp [unrecorded, ended, same]

theorem unrecorded_result (value : Int) (state : σ) :
    (result value state).unrecorded = result value state := by
  unfold result
  split <;> rfl

theorem unrecorded_recorded (count sides : Int) (course : Course σ) :
    (course.recorded count sides).unrecorded = course.unrecorded := by
  unfold recorded
  split <;> rfl

/-- What a roll does has nothing to do with whether it is recorded. -/
theorem unrecorded_roll (source : Source σ) (record : Bool) (maxDice : Option Int)
    (count sides : Int) (state : σ) :
    roll source ⟨false, maxDice⟩ count sides state =
      (roll source ⟨record, maxDice⟩ count sides state).unrecorded := by
  have none : (dice source sides count.toNat 0 state).rolls = [] := rolls_dice
  have thrown : (dice source sides count.toNat 0 state).unrecorded =
      dice source sides count.toNat 0 state := by
    rw [unrecorded, ← none]
  have checks : Evaluation.rollFault? ⟨false, maxDice⟩ count sides =
      Evaluation.rollFault? ⟨record, maxDice⟩ count sides := rfl
  rw [Evaluation.course_roll_eq, Evaluation.course_roll_eq, checks]
  cases Evaluation.rollFault? ⟨record, maxDice⟩ count sides with
  | some fault => rfl
  | none =>
      cases record with
      | false => exact thrown.symm
      | true => simp [unrecorded_recorded, thrown]

end Course

/-- **Without recording, an expression has the same course but for the rolls recorded.** -/
theorem Expr.course_unrecorded (source : Source σ) (record : Bool) (maxDice : Option Int)
    (tree : Expr) (state : σ) :
    tree.course source ⟨false, maxDice⟩ state =
      (tree.course source ⟨record, maxDice⟩ state).unrecorded := by
  refine tree.course_related source source ⟨record, maxDice⟩ ⟨false, maxDice⟩
    (fun course course' => ∀ state, course' state = (course state).unrecorded) ?_ ?_ ?_ ?_ state
  · exact fun value state => rfl
  · exact fun value state => (Course.unrecorded_result value state).symm
  · exact fun count sides => Course.unrecorded_roll source record maxDice count sides
  · intro course course' next next' before after state
    beta_reduce
    rw [before, Course.unrecorded_andThen after]

/-- Without recording, an evaluation leaves the same table but for the rolls recorded. -/
theorem Table.evaluate_unrecorded (table : Table σ) (source : Source σ) (maxDice : Option Int)
    (tree : Expr) :
    table.evaluate source ⟨false, maxDice⟩ tree =
      ((table.evaluate source ⟨true, maxDice⟩ tree).1,
        { (table.evaluate source ⟨true, maxDice⟩ tree).2 with rolls := table.rolls }) := by
  rw [evaluate_eq, evaluate_eq, tree.course_unrecorded source true]
  simp [Course.unrecorded, after]

/-- Without recording, a notation is played in the same way but for the rolls recorded. -/
theorem play_unrecorded (source : Source σ) (state : σ) (limits : Limits) (text : String) :
    play source state ⟨false, limits.maxDice⟩ limits.maxDepth text =
      ⟨(play source state ⟨true, limits.maxDice⟩ limits.maxDepth text).outcome,
        { (play source state ⟨true, limits.maxDice⟩ limits.maxDepth text).table with
          rolls := #[] }⟩ := by
  unfold play
  cases Expr.parse text limits.maxDepth with
  | error fault => rfl
  | ok tree =>
      simp only [Table.evaluate_unrecorded]
      rcases (Table.mk state #[] #[]).evaluate source ⟨true, limits.maxDice⟩ tree with
        ⟨fault | total, after⟩ <;> rfl

/-- **A roll for the total ends as the detailed roll**, and leaves the source in the same state. -/
theorem roll_eq_rollDetailed (source : Source σ) (state : σ) (limits : Limits) (text : String) :
    roll source state limits text =
      ⟨(rollDetailed source state limits text).outcome.map RollResult.total,
        { (rollDetailed source state limits text).table with rolls := #[] }⟩ := by
  rw [roll, play_unrecorded, rollDetailed]
  rcases play source state ⟨true, limits.maxDice⟩ limits.maxDepth text with
    ⟨fault | ⟨tree, total⟩, after⟩ <;> rfl

/-! ## What the source is asked -/

/-- What a source that writes down its requests has been asked by the end of a roll. -/
def Rolled.asked {α : Type} (rolled : Rolled (σ × List (Int × Int)) α) : List (Int × Int) :=
  rolled.table.source.2

/-- **A notation that is played puts the requests of its course to the source**, and none if it
cannot be read. -/
theorem asked_play (source : Source σ) (state : σ) (rules : Rules) (maxDepth : DepthLimit)
    (text : String) :
    (play source.logged (state, []) rules maxDepth text).asked =
      match Expr.parse text maxDepth with
      | .error _ => []
      | .ok tree => (tree.course source rules state).requests.map fun sides => (1, sides) := by
  unfold play
  cases Expr.parse text maxDepth with
  | error fault => rfl
  | ok tree =>
      have left : ((Table.mk (state, []) #[] #[]).evaluate source.logged rules tree).2.source.2 =
          (tree.course source rules state).requests.map fun sides => (1, sides) := by
        rw [Table.evaluate_eq, Expr.course_logged]
        rfl
      simp only
      rw [← left]
      rcases (Table.mk (state, []) #[] #[]).evaluate source.logged rules tree with
        ⟨fault | total, after⟩ <;> rfl

/-! ## The main statement -/

/-- **Recording has no part in an evaluation.**

A notation rolled for its total and the same notation rolled in detail, from the same state of the
source, end in the same total or in the same fault, and leave the source in the same state. A source
that writes down its requests has been asked the same, namely nothing if the notation cannot be
read, and otherwise the requests of the course of its expression.

An expression evaluated with and without recording, from the same table, has the same outcome, the
source is left in the same state and has been asked the same, and without recording the rolls are
those of the table.

The service gives to a call with and without details answers that agree on whether the roll
succeeded, on the total and on the fault. -/
theorem recording_keeps_outcome (source : Source σ) :
    (∀ (state : σ) (limits : Limits) (text : String),
      let brief := roll source state limits text
      let detailed := rollDetailed source state limits text
      let asked := match Expr.parse text limits.maxDepth with
        | .error _ => []
        | .ok tree => (tree.course source ⟨false, limits.maxDice⟩ state).requests.map
            fun sides => (1, sides)
      brief.outcome = detailed.outcome.map RollResult.total ∧
        brief.table.source = detailed.table.source ∧
        (roll source.logged (state, []) limits text).asked = asked ∧
        (rollDetailed source.logged (state, []) limits text).asked = asked) ∧
    (∀ (maxDice : Option Int) (tree : Expr) (table : Table σ) (log : List (Int × Int)),
      let silent := table.evaluate source ⟨false, maxDice⟩ tree
      let recording := table.evaluate source ⟨true, maxDice⟩ tree
      let logged : Table (σ × List (Int × Int)) :=
        ⟨(table.source, log), table.rolls, table.draws⟩
      silent.1 = recording.1 ∧ silent.2.source = recording.2.source ∧
        silent.2.rolls = table.rolls ∧
        (logged.evaluate source.logged ⟨false, maxDice⟩ tree).2.source =
          (logged.evaluate source.logged ⟨true, maxDice⟩ tree).2.source) ∧
    ∀ (service : Service) (fresh : Twister) (text : String) (seed : Option Int),
      let brief := (service.answer fresh (.roll text seed false)).1
      let detailed := (service.answer fresh (.roll text seed true)).1
      brief.member? "ok" = detailed.member? "ok" ∧
        brief.member? "total" = detailed.member? "total" ∧
        brief.member? "error" = detailed.member? "error" := by
  refine ⟨fun state limits text => ?_, fun maxDice tree table log => ?_,
    fun service fresh text seed => ?_⟩
  · have same := roll_eq_rollDetailed source state limits text
    have silent := asked_play source state ⟨false, limits.maxDice⟩ limits.maxDepth text
    have recording := asked_play source state ⟨true, limits.maxDice⟩ limits.maxDepth text
    refine ⟨by rw [same], by rw [same], silent, recording.trans ?_⟩
    cases Expr.parse text limits.maxDepth with
    | error fault => rfl
    | ok tree =>
        have course := tree.course_unrecorded source true limits.maxDice state
        simp only [course]
        rfl
  · have same := table.evaluate_unrecorded source maxDice tree
    refine ⟨by rw [same], by rw [same], by rw [same], ?_⟩
    rw [Table.evaluate_unrecorded]
  · simp only [Service.answer]
    generalize (rollDetailed Twister.source (Service.generator fresh (seed <|> service.seed))
      service.limits text).outcome = outcome
    refine ⟨?_, ?_, ?_⟩
    · rw [Answer.member?_ok_ofRoll, Answer.member?_ok_ofRoll]
    · rw [Answer.member?_total_ofRoll, Answer.member?_total_ofRoll]
    · rw [Answer.member?_error_ofRoll, Answer.member?_error_ofRoll]

end DiceNotation
