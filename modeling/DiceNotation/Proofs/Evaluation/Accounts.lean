import DiceNotation.Proofs.Evaluation.Session
import DiceNotation.Proofs.Evaluation.Spending
import DiceNotation.Proofs.Evaluation.Trails
import DiceNotation.Proofs.Reading.DieMarks

/-!
# The accounts of a replay

An evaluation that succeeds has reached every roll of its expression, and has drawn as many values
as these rolls have dice (`Expr.trail_counted`). On a replay it has taken just these values: they
lead to the same success whatever lies behind them, and a part of them exhausts the replay.

On a replay that was used before, an evaluation goes as on a new one that holds the values left. It
can tell the difference at one place only, which is the number of accepted values that an exhausted
replay reports (`Table.evaluate_resumed`). So in a session, as long as the replay is not exchanged,
the values are those taken by the evaluations, one after the other, and then those that are left
(`Session.accounts_after`).
-/

set_option autoImplicit false

namespace DiceNotation

variable {σ : Type}

/-! ## The dice of a success -/

/-- The number of rolls that a node is, apart from its operands. -/
def Layer.rollCount : Layer Int → Nat
  | .binary operation _ _ => operation.rollCount
  | _ => 0

/-- What a trail that succeeds has reached, drawn and recorded, from a table on: so many rolls, one
draw for each of their dice, and, if rolls are recorded, these rolls. -/
structure Trail.Counted (rules : Rules) (table : Table σ) (rolls : Nat) (trail : Trail σ)
    (after : Table σ) : Prop where
  reached : trail.arrivals.length = rolls
  draws : (after.draws.size : Int) = table.draws.size + (trail.arrivals.map Arrival.count).sum
  recorded : after.rolls.toList.map DieRoll.count = table.rolls.toList.map DieRoll.count ++
    if rules.record then trail.arrivals.map Arrival.count else []

namespace Trail.Counted

variable {source : Source σ} {rules : Rules} {table after : Table σ} {total : Int}

/-- A node that succeeds draws one value for each die if it is a roll, and none if it is not. -/
theorem node (layer : Layer Int)
    (ended : (node source rules layer table).played = (.ok total, after)) :
    Counted rules table layer.rollCount (node source rules layer table) after := by
  match layer with
  | .literal value | .unary .identity value =>
    cases ended
    exact ⟨rfl, (Int.add_zero _).symm, by simp [Trail.node]⟩
  | .unary .negate value | .binary .add left right | .binary .subtract left right =>
    have same : after = table := (congrArg Prod.snd ended).symm
    rw [same]
    exact ⟨rfl, (Int.add_zero _).symm, by simp [Trail.node]⟩
  | .binary (.roll isImplicit) count sides =>
    have followed := (Evaluation.follows_roll source rules count sides table).symm.trans ended
    obtain ⟨outcome, rfl⟩ := Prod.mk.inj followed
    rcases thrown : (Course.roll source rules count sides table.source).outcome with halt | value
    · rw [thrown] at outcome
      cases outcome
    · obtain ⟨sound, completes, rolls⟩ := Course.roll_completes thrown
      have one := (Evaluation.rollFault?_eq_none_iff.mp sound).1
      refine ⟨rfl, ?_, ?_⟩
      · simp only [Table.after, Array.size_append, List.size_toArray, completes.length, Trail.node,
          List.map_singleton, List.sum_singleton]
        omega
      · simp only [Table.after, Array.toList_append, List.map_append, rolls]
        split <;> rfl

/-- **A trail that goes on and succeeds counts what its parts count.** -/
theorem andThen {trail : Trail σ} {next : Int → Table σ → Trail σ} {first second : Nat}
    (before : ∀ {total after}, trail.played = (.ok total, after) →
      Counted rules table first trail after)
    (later : ∀ value middle {total after}, (next value middle).played = (.ok total, after) →
      Counted rules middle second (next value middle) after)
    (ended : (trail.andThen next).played = (.ok total, after)) :
    Counted rules table (first + second) (trail.andThen next) after := by
  rcases begun : trail.played with ⟨fault | value, middle⟩
  · rw [andThen_of_error begun, begun] at ended
    cases ended
  · rw [andThen_of_ok begun] at ended ⊢
    have counted := before begun
    have rest := later value middle ended
    constructor
    · rw [List.length_append, counted.reached, rest.reached]
    · rw [rest.draws, counted.draws, List.map_append, List.sum_append, Int.add_assoc]
    · rw [rest.recorded, counted.recorded, List.append_assoc]
      split <;> simp

end Trail.Counted

/-- **An evaluation that succeeds has reached all rolls of its expression**, and has drawn one value
for each of their dice. -/
theorem Expr.trail_counted (source : Source σ) (rules : Rules) (tree : Expr) :
    ∀ (table : Table σ) {total : Int} {after : Table σ},
      (tree.trail source rules table).played = (.ok total, after) →
        Trail.Counted rules table tree.rollCount (tree.trail source rules table) after := by
  induction tree with
  | literal value => exact fun table => Trail.Counted.node (.literal value)
  | unary sign operand ih =>
      intro table total after
      exact Trail.Counted.andThen (ih table) fun value middle =>
        Trail.Counted.node (.unary sign value)
  | binary operation left right ihLeft ihRight =>
      intro table total after
      exact Trail.Counted.andThen (ihLeft table) fun first middle =>
        Trail.Counted.andThen (ihRight middle) fun second last =>
          Trail.Counted.node (.binary operation first second)

/-! ## Tables on a replay -/

/-- The value that a replay has used up in an evaluation without accepting it. -/
def Replay.rejected (outcome : Except Fault Int) : List Int :=
  match outcome with
  | .error fault => fault.rejected
  | .ok _ => []

namespace Table

/-- A new table with a new replay. -/
def ofValues (values : List Int) : Table Replay :=
  { source := ⟨values, 0⟩ }

/-- The values drawn from one table to a later one. -/
def drawn (table later : Table σ) : List Int :=
  (later.draws.toList.drop table.draws.size).map Draw.value

/-- A table after something that has happened on a new table with the values left. -/
def resumed (table fresh : Table Replay) : Table Replay where
  source := ⟨fresh.source.values, table.source.accepted + fresh.source.accepted⟩
  rolls := table.rolls ++ fresh.rolls
  draws := table.draws ++ fresh.draws

/-- What an evaluation takes from the replay of a table. -/
structure Accounts (table : Table Replay) (played : Except Fault Int × Table Replay) : Prop where
  /-- First the values drawn, then perhaps one that is rejected, and the others are left. -/
  values : table.source.values =
    table.drawn played.2 ++ Replay.rejected played.1 ++ played.2.source.values
  /-- Only the values drawn are counted. -/
  accepted : played.2.source.accepted = table.source.accepted + (table.drawn played.2).length
  /-- A replay that is exhausted has no value left, and tells how many were accepted. -/
  exhausted : ∀ accepted, played.1 = .error (.exhausted accepted) → played.2.source = ⟨[], accepted⟩

theorem drawn_after (table : Table σ) (course : Course σ) :
    table.drawn (table.after course) = course.draws.map Draw.value := by
  simp [drawn, after]

theorem size_draws_evaluate (table : Table σ) (source : Source σ) (rules : Rules) (tree : Expr) :
    (table.evaluate source rules tree).2.draws.size =
      table.draws.size + (table.drawn (table.evaluate source rules tree).2).length := by
  rw [evaluate_eq, drawn_after]
  simp [after]

/-- **Every evaluation keeps the accounts of its replay.** -/
theorem accounts_evaluate (table : Table Replay) (rules : Rules) (tree : Expr) :
    table.Accounts (table.evaluate Replay.source rules tree) := by
  have takes := (tree.spends rules).takes table.source
  have plain := tree.plain_course Replay.source rules table.source
  rw [evaluate_eq]
  generalize tree.course Replay.source rules table.source = course at *
  have same : Replay.rejected (course.outcome.mapError Halt.reported) = course.rejected := by
    unfold Course.rejected
    cases stops : course.outcome with
    | error halt => exact (plain stops).rejected_reported
    | ok total => rfl
  constructor
  · rw [drawn_after, same]
    exact takes.values
  · rw [drawn_after, List.length_map]
    exact takes.accepted
  · intro accepted reported
    cases stops : course.outcome with
    | error halt =>
        rw [stops] at reported
        have halted := (plain stops).eq_of_exhausted (Except.error.inj reported)
        exact takes.exhausted accepted (by rw [stops, halted])
    | ok total =>
        rw [stops] at reported
        cases reported

/-- **On a replay that was used before, an evaluation goes as on a new one** with the values left.
Only an exhausted replay tells how many values it accepted before. -/
theorem evaluate_resumed (table : Table Replay) (rules : Rules) (tree : Expr) :
    let fresh := (ofValues table.source.values).evaluate Replay.source rules tree
    table.evaluate Replay.source rules tree =
      (fresh.1.mapError (Fault.later table.source.accepted), table.resumed fresh.2) := by
  obtain ⟨⟨values, accepted⟩, rolls, draws⟩ := table
  have plain := tree.plain_course Replay.source rules ⟨values, 0⟩
  simp only [evaluate_eq, ofValues, (tree.spends rules).later values accepted]
  generalize tree.course Replay.source rules ⟨values, 0⟩ = course at *
  refine Prod.ext ?_ (by simp [after, resumed, Course.later])
  cases stops : course.outcome with
  | error halt =>
      simp only [Course.later, stops]
      exact congrArg Except.error ((plain stops).reported_later accepted)
  | ok total => simp [Course.later, stops, Except.mapError]

section

variable {rules : Rules} {tree : Expr} {values other : List Int} {total : Int}
  {after : Table Replay}

/-- A success takes its values from the front and leaves the others. -/
theorem consumed_of_evaluate
    (evaluated : (ofValues values).evaluate Replay.source rules tree = (.ok total, after)) :
    after.source.accepted = after.draws.size ∧ after.source.accepted ≤ values.length ∧
      after.source.values = values.drop after.source.accepted := by
  have accounts := (ofValues values).accounts_evaluate rules tree
  have drawn := (ofValues values).size_draws_evaluate Replay.source rules tree
  rw [evaluated] at accounts drawn
  have accepted : after.source.accepted = ((ofValues values).drawn after).length :=
    accounts.accepted.trans (Nat.zero_add _)
  have given : values = (ofValues values).drawn after ++ [] ++ after.source.values :=
    accounts.values
  rw [List.append_nil] at given
  refine ⟨accepted.trans (drawn.trans (Nat.zero_add _)).symm, ?_, ?_⟩
  · rw [given, List.length_append, accepted]
    exact Nat.le_add_right _ _
  · rw [accepted]
    exact (List.drop_left' rfl).symm.trans (congrArg (List.drop _) given.symm)

/-- A success has reached all rolls and has consumed one value for each of their dice. -/
theorem counts_of_evaluate
    (evaluated : (ofValues values).evaluate Replay.source rules tree = (.ok total, after)) :
    let rolls := (tree.trail Replay.source rules (ofValues values)).arrivals
    rolls.length = tree.rollCount ∧ (after.source.accepted : Int) = (rolls.map Arrival.count).sum ∧
      (rules.record → after.rolls.toList.map DieRoll.count = rolls.map Arrival.count) := by
  intro rolls
  have played := tree.played_trail Replay.source rules (ofValues values)
  obtain ⟨reached, draws, recorded⟩ :=
    tree.trail_counted Replay.source rules _ (played.trans evaluated)
  refine ⟨reached, ?_, fun record => ?_⟩
  · rw [(consumed_of_evaluate evaluated).1, draws]
    exact Int.zero_add _
  · rw [recorded, if_pos record]
    rfl

/-- The course of an evaluation that succeeds on a new table. -/
theorem course_of_evaluate
    (evaluated : (ofValues values).evaluate Replay.source rules tree = (.ok total, after)) :
    (tree.course Replay.source rules ⟨values, 0⟩).outcome = .ok total ∧
      (ofValues values).after (tree.course Replay.source rules ⟨values, 0⟩) = after :=
  evaluate_eq_ok_iff.mp evaluated

/-- **The values that were drawn lead to the same success**, whatever lies behind them. -/
theorem evaluate_of_prefix
    (evaluated : (ofValues values).evaluate Replay.source rules tree = (.ok total, after))
    (begins : values.take after.source.accepted <+: other) :
    (ofValues other).evaluate Replay.source rules tree =
      (.ok total, { after with
        source := ⟨other.drop after.source.accepted, after.source.accepted⟩ }) := by
  obtain ⟨ended, rfl⟩ := course_of_evaluate evaluated
  have spends := tree.spends rules
  have again := spends.replays _ (spends.fair ⟨values, 0⟩) (Course.answered_of_ok ended)
  have takes := spends.takes ⟨values, 0⟩
  generalize tree.course Replay.source rules ⟨values, 0⟩ = course at *
  have accepted : course.source.accepted = (course.draws.map Draw.value).length := by
    rw [takes.accepted, List.length_map, Nat.zero_add]
  have given : values = _ := takes.values_of_ok ended
  obtain ⟨behind, rfl⟩ := begins
  have drawn : values.take course.source.accepted = course.draws.map Draw.value := by
    rw [accepted, given, List.take_left]
  simp only [after, drawn]
  rw [evaluate_eq, ofValues, again behind 0, accepted, List.drop_left]
  simp [Course.replayed, ended, Except.mapError, after, ofValues]

/-- **A part of the values that were drawn exhausts the replay.** -/
theorem evaluate_of_cut
    (evaluated : (ofValues values).evaluate Replay.source rules tree = (.ok total, after))
    {number : Nat} (fewer : number < after.source.accepted) :
    ∃ left, (ofValues (values.take number)).evaluate Replay.source rules tree =
      (.error (.exhausted number), left) ∧ left.source = ⟨[], number⟩ := by
  obtain ⟨-, rfl⟩ := course_of_evaluate evaluated
  have accepted := ((tree.spends rules).takes ⟨values, 0⟩).accepted
  have short := (tree.spends rules).cutShort values 0 number (by
    rw [Nat.zero_add] at accepted
    rw [← accepted]
    exact fewer)
  rw [Nat.zero_add] at short
  rw [evaluate_eq, ofValues, short.outcome]
  exact ⟨_, rfl, short.source⟩

end

end Table

/-! ## Sessions on a replay -/

namespace Session

/-- The source of a session is not exchanged. -/
def Event.KeepsSource : Event σ → Prop
  | .supply _ _ => False
  | _ => True

/-- The values that are taken from the replay of a session. -/
def taken (session : Session Replay) : Event Replay → List Int
  | .evaluate tree =>
    let (outcome, later) := session.evaluate tree
    session.table.drawn later.table ++ Replay.rejected outcome
  | _ => []

/-- The values that a history takes from the replay of a session. -/
def takenBy (session : Session Replay) : List (Event Replay) → List Int
  | [] => []
  | event :: later => session.taken event ++ (session.step event).takenBy later

/-- What is left of a replay when some values were taken from it. -/
structure Accounts (session : Session Replay) (taken : List Int) (later : Session Replay) :
    Prop where
  source : later.source = session.source
  values : session.table.source.values = taken ++ later.table.source.values
  /-- Only the values drawn are counted. -/
  accepted : later.table.source.accepted + session.table.draws.size =
    session.table.source.accepted + later.table.draws.size

/-- An event keeps the accounts of a replay. -/
theorem accounts_step {session : Session Replay} (replays : session.source = Replay.source)
    {event : Event Replay} (keeps : event.KeepsSource) :
    session.Accounts (session.taken event) (session.step event) := by
  cases event with
  | evaluate tree =>
      have accounts := session.table.accounts_evaluate session.rules tree
      have drawn := session.table.size_draws_evaluate Replay.source session.rules tree
      rw [← replays] at accounts drawn
      refine ⟨rfl, accounts.values, ?_⟩
      have accepted := accounts.accepted
      simp only [step, evaluate]
      omega
  | record isRecorded | limit maxDice => exact ⟨rfl, rfl, rfl⟩
  | supply source state => exact keeps.elim

/-- **A history keeps the accounts of a replay.** -/
theorem accounts_after {history : List (Event Replay)}
    (keeps : ∀ event ∈ history, event.KeepsSource) :
    ∀ session : Session Replay, session.source = Replay.source →
      session.Accounts (session.takenBy history) (session.after history) := by
  induction history with
  | nil => exact fun _ _ => ⟨rfl, rfl, rfl⟩
  | cons event later ih =>
      intro session replays
      obtain ⟨now, others⟩ := List.forall_mem_cons.mp keeps
      have first := accounts_step replays now
      have rest := ih others _ (first.source.trans replays)
      refine ⟨rest.source.trans first.source, ?_, ?_⟩
      · rw [first.values, rest.values, takenBy, List.append_assoc]
        rfl
      · have before := first.accepted
        have behind := rest.accepted
        change ((session.step event).after later).table.source.accepted + _ =
          _ + ((session.step event).after later).table.draws.size
        omega

end Session

/-! ## The main statement -/

/-- **The draws on a replay are accounted for.** If an evaluation succeeds on a sequence of values,
then it has reached all rolls of its expression, and has drawn one value from the front of the
sequence for each of their dice. Every sequence that begins with these values leads to the same
success and is used up as far; every shorter part of them is used up and then exhausted.

In a session that keeps its sequence, the values are those that the evaluations have taken, and then
those that are left. Every evaluation goes as on a new sequence of the values left, and counts on:
it takes the values that it draws, and with them the one that is rejected, if a draw was out of
range; an exhausted sequence has none left, and reports how many values it has accepted from the
beginning. The values drawn are counted, and no others. -/
theorem replay_draws_are_accounted (values : List Int) :
    (∀ rules tree total after,
      (Table.ofValues values).evaluate Replay.source rules tree = (.ok total, after) →
        let consumed := after.source.accepted
        let rolls := (tree.trail Replay.source rules (.ofValues values)).arrivals
        (consumed ≤ values.length ∧ after.source.values = values.drop consumed) ∧
        (rolls.length = tree.rollCount ∧ (consumed : Int) = (rolls.map Arrival.count).sum ∧
          (rules.record →
            after.rolls.toList.map DieRoll.count = rolls.map Arrival.count)) ∧
        (∀ other, values.take consumed <+: other →
          (Table.ofValues other).evaluate Replay.source rules tree =
            (.ok total, { after with source := ⟨other.drop consumed, consumed⟩ })) ∧
        ∀ fewer < consumed, ∃ left,
          (Table.ofValues (values.take fewer)).evaluate Replay.source rules tree =
            (.error (.exhausted fewer), left) ∧ left.source = ⟨[], fewer⟩) ∧
    ∀ rules history, (∀ event ∈ history, event.KeepsSource) →
      let start : Session Replay := ⟨Replay.source, rules, .ofValues values⟩
      let session := start.after history
      let left := session.table.source
      values = start.takenBy history ++ left.values ∧
        left.accepted = session.table.draws.size ∧
        ∀ tree,
          let fresh := (Table.ofValues left.values).evaluate Replay.source session.rules tree
          session.evaluate tree = (fresh.1.mapError (Fault.later left.accepted),
              { session with table := session.table.resumed fresh.2 }) ∧
            (Table.ofValues left.values).Accounts fresh := by
  refine ⟨?_, ?_⟩
  · intro rules tree total after evaluated consumed rolls
    exact ⟨(Table.consumed_of_evaluate evaluated).2, Table.counts_of_evaluate evaluated,
      fun other begins => Table.evaluate_of_prefix evaluated begins,
      fun fewer few => Table.evaluate_of_cut evaluated few⟩
  · intro rules history keeps start session left
    obtain ⟨same, values, accepted⟩ := Session.accounts_after keeps start rfl
    have replays : session.source = Replay.source := same
    refine ⟨values, accepted.trans (Nat.zero_add _), fun tree => ⟨?_, ?_⟩⟩
    · have resumed := session.table.evaluate_resumed session.rules tree
      rw [Session.evaluate, replays, resumed]
    · exact (Table.ofValues left.values).accounts_evaluate session.rules tree

/-- A roll whose number of dice is rolled takes five values, and three of them exhaust it. The next
roll loses the nine, which no die shows, so that the five is left and only five values are
counted. -/
theorem accounts_of_rejected_draw :
    let nested := Expr.binary (.roll false)
      (.binary (.roll false) (.literal 2) (.literal 6)) (.literal 4)
    let start : Session Replay := ⟨Replay.source, {}, .ofValues [1, 2, 4, 1, 3, 9, 5]⟩
    let session := start.after [.evaluate nested, .evaluate (.die (.literal 6))]
    (∃ left, (Table.ofValues [1, 2, 4]).evaluate Replay.source {} nested =
      (.error (.exhausted 3), left) ∧ left.source = ⟨[], 3⟩) ∧
      start.takenBy [.evaluate nested, .evaluate (.die (.literal 6))] = [1, 2, 4, 1, 3] ++ [9] ∧
        session.table.source.values = [5] ∧ session.table.draws.size = 5 := by
  intro nested start session
  obtain ⟨alone, together⟩ := replay_draws_are_accounted [1, 2, 4, 1, 3, 9, 5]
  have evaluated : (Table.ofValues [1, 2, 4, 1, 3, 9, 5]).evaluate Replay.source {} nested =
      (.ok 8, ⟨⟨[9, 5], 5⟩, #[], #[⟨6, 1⟩, ⟨6, 2⟩, ⟨4, 4⟩, ⟨4, 1⟩, ⟨4, 3⟩]⟩) := by
    rw [Table.evaluate_eq]
    cbv
  obtain ⟨-, -, -, cut⟩ := alone {} nested 8 _ evaluated
  have rejects : (Expr.die (.literal 6)).course Replay.source {} ⟨[9, 5], 5⟩ =
      { outcome := .error (.refused (Fault.drawOutOfRange 9 1 6).told), source := ⟨[5], 5⟩,
        requests := [6] } := rfl
  have left : session.table.source = ⟨[5], 5⟩ := by
    have first := congrArg (fun played => (Session.mk Replay.source {} played.2)) evaluated
    simp only [session, start, Session.after, List.foldl_cons, List.foldl_nil, Session.step,
      Session.evaluate, evaluated, Table.evaluate_eq, rejects]
    rfl
  obtain ⟨values, accepted, -⟩ := together {} [.evaluate nested, .evaluate (.die (.literal 6))]
    (by simp [Session.Event.KeepsSource])
  refine ⟨cut 3 (by decide), ?_, by rw [left], ?_⟩
  · have parted : ([1, 2, 4, 1, 3] ++ [9]) ++ [5] =
        start.takenBy _ ++ session.table.source.values := values
    rw [left] at parted
    exact (List.append_cancel_right parted).symm
  · have counted : session.table.source.accepted = session.table.draws.size := accepted
    rw [← counted, left]

/-- An exhausted replay tells how many values it has accepted from the beginning. So a replay that
was used before can be told from a new one that holds the same values, which are none here. -/
theorem exhausted_replay_counts_on :
    let die := Expr.die (.literal 6)
    let start : Session Replay := ⟨Replay.source, {}, .ofValues [3]⟩
    let session := start.after [.evaluate die]
    let fresh :=
      (Table.ofValues session.table.source.values).evaluate Replay.source session.rules die
    (session.evaluate die).1 = .error (.exhausted 1) ∧ fresh.1 = .error (.exhausted 0) ∧
      (session.evaluate die).1 ≠ fresh.1 ∧
        (Fault.exhausted 1).message = "Sequence exhausted after 1 draw(s)" ∧
          (Fault.exhausted 0).message = "Sequence exhausted after 0 draw(s)" := by
  intro die start session fresh
  have used : (session.evaluate die).1 = .error (.exhausted 1) := by
    unfold session start die
    cbv
  have new : fresh.1 = .error (.exhausted 0) := by
    unfold fresh session start die
    cbv
  refine ⟨used, new, ?_, by decide +kernel, by decide +kernel⟩
  rw [used, new]
  decide

end DiceNotation
