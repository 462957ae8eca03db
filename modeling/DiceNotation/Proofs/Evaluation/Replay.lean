import DiceNotation.Proofs.Evaluation.Throws
import DiceNotation.Roll

/-!
# Replaying a roll

The draws of a course determine it. If every draw shows a side of its die and no request was
refused, then a replay of the draws gives every request the answer it had, so the course is the same
with the replay in place of the source, and the values behind the draws are left
(`Expr.replays_course`). The induction is over the expression with an arbitrary remainder behind the
draws: the replay of an operand leaves the draws of what comes after it.

Of a course that ends in a value and whose rolls are recorded, the rolls hold all the draws in their
order (`Expr.holdsDraws_course`). A roll that is nested in another is recorded before it, and it has
drawn before it. So a detailed roll can be replayed from its result alone (`roll_replays`).
-/

set_option autoImplicit false

namespace DiceNotation

variable {σ : Type}

/-! ## Courses on a replay -/

/-- Every request of a course was answered. -/
def Course.Answered (course : Course σ) : Prop :=
  ∀ fault, course.outcome ≠ .error (.refused fault)

theorem Course.answered_of_ok {course : Course σ} {value : Int}
    (ended : course.outcome = .ok value) : course.Answered := by
  intro fault refused
  rw [ended] at refused
  cases refused

/-- A course as it goes on a replay of its draws: the values behind them are left. -/
def Course.replayed (course : Course σ) (left : List Int) (accepted : Nat) : Course Replay :=
  { course with source := ⟨left, accepted + course.draws.length⟩ }

/-- What a source does is done again on a replay of the draws, whatever values lie behind them. -/
def Replays (course : σ → Course σ) (again : Replay → Course Replay) : Prop :=
  ∀ (state : σ), (course state).Fair → (course state).Answered →
    ∀ (left : List Int) (accepted : Nat),
      again ⟨(course state).draws.map Draw.value ++ left, accepted⟩ =
        (course state).replayed left accepted

namespace Replays

theorem done (value : Int) : Replays (σ := σ) (Course.done value) (Course.done value) :=
  fun _ _ _ _ _ => rfl

theorem stopped (halt : Halt) : Replays (σ := σ) (Course.stopped halt) (Course.stopped halt) :=
  fun _ _ _ _ _ => rfl

theorem request (source : Source σ) (sides : Int) :
    Replays (Course.request source sides) (Course.request Replay.source sides) := by
  intro state fair answered left accepted
  unfold Course.request at fair answered ⊢
  rcases answer : source.request 1 sides state with ⟨fault | value, next⟩
  · rw [answer] at answered
    exact absurd rfl (answered fault)
  · simp only [answer] at fair ⊢
    have shown : 1 ≤ value ∧ value ≤ sides := fair ⟨sides, value⟩ (List.mem_singleton_self _)
    simp [Replay.source, Replay.request, shown, Course.replayed]

/-- **A course and its continuation are replayed one after the other.** -/
theorem andThen {course : σ → Course σ} {again : Replay → Course Replay}
    {next : Int → σ → Course σ} {nextAgain : Int → Replay → Course Replay}
    (first : Replays course again) (later : ∀ value, Replays (next value) (nextAgain value)) :
    Replays (fun state => (course state).andThen next)
      (fun replay => (again replay).andThen nextAgain) := by
  intro state fair answered left accepted
  beta_reduce at fair answered ⊢
  unfold Course.andThen at fair answered ⊢
  cases ended : (course state).outcome with
  | error halt =>
      simp only [ended] at fair answered ⊢
      rw [first state fair answered left accepted]
      simp [Course.replayed, ended]
  | ok value =>
      simp only [ended] at fair answered ⊢
      obtain ⟨fairFirst, fairLater⟩ := List.forall_mem_append.mp fair
      have laterAgain := later value _ fairLater answered left
      -- the replay of the first course leaves the draws of the continuation
      rw [List.map_append, List.append_assoc,
        first state fairFirst (Course.answered_of_ok ended)]
      simp [Course.replayed, ended, laterAgain, Nat.add_assoc]

theorem recorded {course : σ → Course σ} {again : Replay → Course Replay}
    (replays : Replays course again) (count sides : Int) :
    Replays (fun state => (course state).recorded count sides)
      (fun replay => (again replay).recorded count sides) := by
  intro state fair answered left accepted
  rw [Course.Fair, Course.draws_recorded] at fair
  rw [Course.Answered, Course.outcome_recorded] at answered
  beta_reduce
  rw [Course.draws_recorded, replays state fair answered]
  unfold Course.recorded
  cases ended : (course state).outcome <;> simp [Course.replayed, ended]

end Replays

/-- **The course of an expression is replayed from its draws.** -/
theorem Expr.replays_course (source : Source σ) (rules : Rules) (tree : Expr) :
    Replays (tree.course source rules) (tree.course Replay.source rules) :=
  tree.course_related_of_requests source Replay.source rules Replays Replays.done
    (fun _ => Replays.stopped _) (fun _ => Replays.stopped _) (Replays.request source)
    Replays.andThen fun count sides replays => replays.recorded count sides

/-! ## The draws of the recorded rolls -/

/-- If a course ends in a value, its rolls hold its draws in order. -/
def Course.HoldsDraws (course : Course σ) : Prop :=
  ∀ value, course.outcome = .ok value →
    course.rolls.flatMap DieRoll.draws = course.draws.map Draw.value

namespace Course

theorem HoldsDraws.andThen {course : Course σ} {next : Int → σ → Course σ}
    (first : course.HoldsDraws) (later : ∀ value state, (next value state).HoldsDraws) :
    (course.andThen next).HoldsDraws := by
  intro total ended
  obtain ⟨value, begun, continued⟩ := exists_of_andThen_eq_ok ended
  rw [andThen_of_ok begun]
  simp only [followedBy]
  rw [List.flatMap_append, List.map_append, first value begun, later _ _ total continued]

theorem holdsDraws_result (value : Int) (state : σ) : (result value state).HoldsDraws := by
  unfold result
  split <;> exact fun _ _ => rfl

theorem holdsDraws_roll {source : Source σ} {rules : Rules} (record : rules.record = true)
    (count sides : Int) (state : σ) : (roll source rules count sides state).HoldsDraws := by
  intro total ended
  obtain ⟨_, _, rolls⟩ := roll_completes ended
  rw [rolls, if_pos record]
  simp

end Course

/-- **The recorded rolls hold all the draws in order.** -/
theorem Expr.holdsDraws_course {source : Source σ} {rules : Rules} (record : rules.record = true)
    (tree : Expr) (state : σ) : (tree.course source rules state).HoldsDraws :=
  tree.course_holds Course.HoldsDraws (fun _ _ _ _ => rfl) Course.holdsDraws_result
    (Course.holdsDraws_roll record) Course.HoldsDraws.andThen state

/-! ## Detailed rolls -/

/-- **An evaluation can be replayed from the rolls it has recorded.** -/
theorem Table.evaluate_replay {source : Source σ} (fair : source.FairDice) {rules : Rules}
    (record : rules.record = true) {tree : Expr} {state : σ} {total : Int} {after : Table σ}
    (evaluated : (Table.mk state #[] #[]).evaluate source rules tree = (.ok total, after)) :
    let draws := after.rolls.toList.flatMap DieRoll.draws
    (Table.mk ⟨draws, 0⟩ #[] #[]).evaluate Replay.source rules tree =
      (.ok total, ⟨⟨[], draws.length⟩, after.rolls, after.draws⟩) := by
  obtain ⟨ended, rfl⟩ := Table.evaluate_eq_ok_iff.mp evaluated
  have shown := tree.fair_course fair rules state
  have holds : (tree.course source rules state).HoldsDraws := tree.holdsDraws_course record state
  have again := tree.replays_course source rules state shown (Course.answered_of_ok ended) [] 0
  generalize tree.course source rules state = course at *
  intro draws
  have same : draws = course.draws.map Draw.value := by
    rw [← holds total ended]
    simp [draws, Table.after]
  rw [List.append_nil, ← same] at again
  rw [Table.evaluate_eq]
  simp only [again]
  simp [Course.replayed, ended, Except.mapError, Table.after, same]

/-- **A detailed roll can be replayed from its result.** If the source throws fair dice, then a
replay of the draws of the recorded rolls leads to the same result, and no value is left over. -/
theorem roll_replays (source : Source σ) (fair : source.FairDice) (state : σ) (limits : Limits)
    (text : String) (result : RollResult)
    (rolled : (rollDetailed source state limits text).outcome = .ok result) :
    let draws := result.rolls.flatMap DieRoll.draws
    let replayed := rollDetailed Replay.source ⟨draws, 0⟩ limits text
    replayed.outcome = .ok result ∧ replayed.table.source = ⟨[], draws.length⟩ := by
  intro draws replayed
  obtain ⟨read, evaluated, named, kept⟩ := rollDetailed_eq_ok_iff.mp
    (show rollDetailed source state limits text = ⟨.ok result, _⟩ by rw [← rolled])
  have again := Table.evaluate_replay fair rfl evaluated
  rw [← kept] at again
  have played : replayed = ⟨.ok result, ⟨[], draws.length⟩, _, _⟩ :=
    rollDetailed_eq_ok_iff.mpr ⟨read, again, named, kept⟩
  rw [played]
  exact ⟨rfl, rfl⟩

/-- The count of a roll is rolled itself, and the source has a value that is not asked for. -/
theorem roll_replays_nested :
    let rolled := rollDetailed Replay.source ⟨[1, 2, 4, 1, 3, 99], 0⟩ {} "2d6d4"
    let tree := Expr.binary (.roll false)
      (.binary (.roll false) (.literal 2) (.literal 6)) (.literal 4)
    let result : RollResult := ⟨"2d6d4", 8, tree, [⟨2, 6, [1, 2]⟩, ⟨3, 4, [4, 1, 3]⟩]⟩
    let replayed := rollDetailed Replay.source ⟨[1, 2, 4, 1, 3], 0⟩ {} "2d6d4"
    rolled.outcome = .ok result ∧ rolled.table.source = ⟨[99], 5⟩ ∧
      replayed.outcome = .ok result ∧ replayed.table.source = ⟨[], 5⟩ := by
  intro rolled tree result replayed
  have read : Expr.parse "2d6d4" = .ok tree := by cbv
  have evaluated : ((Table.mk (Replay.mk [1, 2, 4, 1, 3, 99] 0) #[] #[]).evaluate Replay.source
      ⟨true, none⟩ tree) = (.ok 8, ⟨⟨[99], 5⟩, #[⟨2, 6, [1, 2]⟩, ⟨3, 4, [4, 1, 3]⟩],
        #[⟨6, 1⟩, ⟨6, 2⟩, ⟨4, 4⟩, ⟨4, 1⟩, ⟨4, 3⟩]⟩) := by
    rw [Table.evaluate_eq]
    cbv
  have played : rolled = ⟨.ok result, _⟩ :=
    rollDetailed_eq_ok_iff.mpr ⟨read, evaluated, rfl, rfl⟩
  have ended : rolled.outcome = .ok result := by rw [played]
  refine ⟨ended, by rw [played], ?_⟩
  exact roll_replays Replay.source Replay.fair_source.fairDice _ {} "2d6d4" result ended

end DiceNotation
