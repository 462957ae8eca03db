import DiceNotation.Proofs.Evaluation.FinishedNodes
import DiceNotation.Roll

/-!
# Sessions

In a session expressions are evaluated one after the other on one table, and between two evaluations
the rules and the source may be changed in any way. Whatever happens, no recorded roll is ever
changed or taken away: every event leaves the rolls as they are with its own rolls behind them
(`Session.rolls_step`), so a whole history does too (`Session.rolls_after`).

Only an evaluation adds rolls, and only if rolls are recorded at that time. These are the rolls
that it finishes, in post-order: all the rolls of its expression if it succeeds, those before the
node that fails if it does not (`Session.recordsCall`). A recorded roll keeps the rules, and with
fair dice the bounds, that were in force when it was made, not those of a later time; this is why
the statement about the rolls of a session, `session_records_finished_rolls`, names the call of
each of them.
-/

set_option autoImplicit false

namespace DiceNotation

variable {σ : Type}

namespace Session

/-! ## Histories -/

/-- What can happen in a session. A new source comes with its state. Sources with states of
different types are sources over the sum of these types. -/
inductive Event (σ : Type)
  | evaluate (tree : Expr)
  | record (isRecorded : Bool)
  | limit (maxDice : Option Int)
  | supply (source : Source σ) (state : σ)

/-- A session after an event. -/
def step (session : Session σ) : Event σ → Session σ
  | .evaluate tree => (session.evaluate tree).2
  | .record isRecorded =>
    { session with rules := { session.rules with record := isRecorded } }
  | .limit maxDice => { session with rules := { session.rules with maxDice } }
  | .supply source state =>
    { session with source, table := { session.table with source := state } }

/-- A session after a history. -/
def after (session : Session σ) (history : List (Event σ)) : Session σ :=
  history.foldl step session

/-- The rolls that are recorded in a session. -/
def rolls (session : Session σ) : List DieRoll :=
  session.table.rolls.toList

/-- An evaluation of a session, watched. -/
def watch (session : Session σ) (tree : Expr) : Watched σ :=
  session.table.watch session.source session.rules tree

/-- The rolls that an event adds. -/
def added (session : Session σ) : Event σ → List DieRoll
  | .evaluate tree => session.rules.recorded (session.watch tree).finished
  | .record _ => []
  | .limit _ => []
  | .supply _ _ => []

/-- The rolls that a history adds. -/
def addedBy (session : Session σ) : List (Event σ) → List DieRoll
  | [] => []
  | event :: later => session.added event ++ (session.step event).addedBy later

theorem evaluate_eq (session : Session σ) (tree : Expr) :
    session.evaluate tree =
      ((session.watch tree).outcome.map Finished.value,
        { session with table := (session.watch tree).table }) := by
  have same : (session.watch tree).unwatched = _ :=
    session.table.unwatched_watch session.source session.rules tree
  unfold evaluate
  rw [← same]
  rfl

/-- An evaluation leaves the table as the course of its expression does. -/
theorem step_evaluate (session : Session σ) (tree : Expr) :
    session.step (.evaluate tree) =
      { session with
        table := session.table.after
          (tree.course session.source session.rules session.table.source) } := by
  have followed := session.table.evaluate_eq session.source session.rules tree
  simp only [step, Session.evaluate, followed]

/-- **An event adds its rolls behind the others.** -/
theorem rolls_step (session : Session σ) (event : Event σ) :
    (session.step event).rolls = session.rolls ++ session.added event := by
  cases event with
  | evaluate tree =>
      rw [step, evaluate_eq]
      exact session.table.rolls_watch session.source session.rules tree
  | record isRecorded => exact (List.append_nil _).symm
  | limit maxDice => exact (List.append_nil _).symm
  | supply source state => exact (List.append_nil _).symm

/-- **A history adds its rolls behind the others.** -/
theorem rolls_after (session : Session σ) (history : List (Event σ)) :
    (session.after history).rolls = session.rolls ++ session.addedBy history := by
  induction history generalizing session with
  | nil => exact (List.append_nil _).symm
  | cons event later ih =>
      have rest := ih (session.step event)
      rw [rolls_step, List.append_assoc] at rest
      exact rest

theorem after_append (session : Session σ) (before behind : List (Event σ)) :
    session.after (before ++ behind) = (session.after before).after behind :=
  List.foldl_append

/-- A roll that a history adds is added by one of its evaluations. -/
theorem exists_call_of_mem_addedBy {history : List (Event σ)} : ∀ {session : Session σ}
    {roll : DieRoll}, roll ∈ session.addedBy history →
      ∃ before tree behind, history = before ++ .evaluate tree :: behind ∧
        (session.after before).rules.record = true ∧
          ∃ node ∈ ((session.after before).watch tree).finished, node.roll? = some roll := by
  induction history with
  | nil => exact fun impossible => (nomatch impossible)
  | cons event later ih =>
      intro session roll member
      rcases List.mem_append.mp member with now | rest
      · cases event with
        | evaluate tree => exact ⟨[], tree, later, rfl, Rules.mem_recorded_iff.mp now⟩
        | record isRecorded => cases now
        | limit maxDice => cases now
        | supply source state => cases now
      · obtain ⟨before, tree, behind, rfl, found⟩ := ih rest
        exact ⟨event :: before, tree, behind, rfl, found⟩

/-! ## One call -/

/-- What an evaluation of a session does. -/
structure RecordsCall (session : Session σ) (tree : Expr) : Prop where
  /-- Watching it changes nothing. -/
  unwatched : session.evaluate tree =
    ((session.watch tree).outcome.map Finished.value,
      { session with table := (session.watch tree).table })
  /-- The nodes are finished in post-order, all of them or those before the one that fails. -/
  progress : (session.watch tree).Progress session.source session.rules tree
  /-- The rolls among the finished nodes are recorded in order, if rolls are recorded. -/
  recorded : (session.evaluate tree).2.rolls = session.rolls ++
    if session.rules.record then (session.watch tree).finished.filterMap Finished.roll? else []
  values : ∀ node ∈ (session.watch tree).finished, node.value = node.exact
  standsFor : ∀ node ∈ (session.watch tree).finished, ∀ roll ∈ node.roll?,
    roll.StandsFor session.source session.rules node

theorem recordsCall (session : Session σ) (tree : Expr) : session.RecordsCall tree where
  unwatched := session.evaluate_eq tree
  progress := session.table.watch_progresses session.source session.rules tree
  recorded := session.rolls_step (.evaluate tree)
  values node member :=
    (session.table.sound_watch session.source session.rules tree node member).exact
  standsFor node member _ same :=
    (session.table.sound_watch session.source session.rules tree node member).standsFor same

end Session

/-! ## All calls -/

/-- **A session records the rolls that its evaluations finish, and keeps them.** Through any
history of evaluations and changes the rolls only grow at their end. Each evaluation does what is
said of a call of the session in which it is made. A roll that is recorded at the end was there at
the beginning, or it stands for a node that one of the evaluations finished while rolls were
recorded, and it has kept the rules and the bounds of that time. -/
theorem session_records_finished_rolls (session : Session σ) (history : List (Session.Event σ)) :
    (∀ before behind, history = before ++ behind →
      (session.after before).rolls <+: (session.after history).rolls) ∧
    (∀ before tree behind, history = before ++ .evaluate tree :: behind →
      (session.after before).RecordsCall tree) ∧
    ∀ roll ∈ (session.after history).rolls, roll ∈ session.rolls ∨
      ∃ before tree behind, history = before ++ .evaluate tree :: behind ∧
        (session.after before).rules.record = true ∧
          ∃ node ∈ ((session.after before).watch tree).finished, node.roll? = some roll ∧
            roll.StandsFor (session.after before).source (session.after before).rules node := by
  refine ⟨?_, fun before tree behind _ => (session.after before).recordsCall tree, ?_⟩
  · rintro before behind rfl
    rw [Session.after_append, Session.rolls_after (session.after before)]
    exact List.prefix_append _ _
  · intro roll member
    rw [Session.rolls_after] at member
    rcases List.mem_append.mp member with old | new
    · exact .inl old
    · obtain ⟨before, tree, behind, same, record, node, finished, rolled⟩ :=
        Session.exists_call_of_mem_addedBy new
      have call := (session.after before).recordsCall tree
      exact .inr ⟨before, tree, behind, same, record, node, finished, rolled,
        call.standsFor node finished roll rolled⟩

/-- A session with a failure and a change of the rules. Of the first expression a roll is finished
before the other one fails; while rolls are not recorded, a roll leaves nothing; and the rolls that
are recorded under the limit of one die do not concern the roll of two dice made before. -/
theorem session_records_around_failure :
    let session : Session Replay := ⟨Replay.source, ⟨true, none⟩, ⟨⟨[3, 1, 4, 5], 0⟩, #[], #[]⟩⟩
    let failing := Expr.binary .add (.binary (.roll false) (.literal 2) (.literal 6))
      (.binary (.roll false) (.literal 1) (.literal 0))
    let die := Expr.die (.literal 6)
    let history : List (Session.Event Replay) :=
      [.evaluate failing, .record false, .evaluate die, .limit (some 1), .record true,
        .evaluate die]
    (session.after history).rolls = [⟨2, 6, [3, 1]⟩, ⟨1, 6, [5]⟩] ∧
      [⟨2, 6, [3, 1]⟩] <+: (session.after history).rolls ∧ session.RecordsCall failing ∧
        ∃ before tree behind, history = before ++ .evaluate tree :: behind ∧
          (session.after before).rules.record = true ∧
            ∃ node ∈ ((session.after before).watch tree).finished,
              node.roll? = some ⟨1, 6, [5]⟩ ∧ node.value = 5 := by
  intro session failing die history
  have first : (session.after [.evaluate failing]).rolls = [⟨2, 6, [3, 1]⟩] := by
    rw [Session.after, List.foldl_cons, Session.step_evaluate]
    cbv
  have last : (session.after history).rolls = [⟨2, 6, [3, 1]⟩, ⟨1, 6, [5]⟩] := by
    rw [Session.after, List.foldl_cons, Session.step_evaluate]
    cbv
  obtain ⟨grows, calls, stands⟩ := session_records_finished_rolls session history
  refine ⟨last, ?_, calls [] failing _ rfl, ?_⟩
  · rw [← first]
    exact grows _ _ rfl
  · rcases stands ⟨1, 6, [5]⟩ (by rw [last]; decide) with old | new
    · cases old
    · obtain ⟨before, tree, behind, same, record, node, finished, rolled, standsFor⟩ := new
      exact ⟨before, tree, behind, same, record, node, finished, rolled, standsFor.total.symm⟩

end DiceNotation
