import DiceNotation.Proofs.Evaluation.Replay

/-!
# What an evaluation takes from a replay

A course on a replay takes values from its front: those that it draws and, if the last one does not
fit, that one as well. It leaves the values behind these, counts the values drawn, and a replay that
is exhausted has none left (`Course.Takes`). Values that were accepted earlier make no difference
but to what is counted (`Course.later`). And a replay that ends in the middle of the draws exhausts
the course just there (`Course.CutShort`).

All this is so for requests, and it stays so when courses are put together (`Spends.andThen`). So it
is so for the courses of all expressions (`Expr.spends`). A halt at a roll that must not begin
speaks of dice or of sides, so that the fault that is reported tells whether a replay is exhausted
or has rejected a value (`Expr.plain_course`).
-/

set_option autoImplicit false

namespace DiceNotation

/-! ## Faults of a replay -/

namespace Fault

/-- The value that a replay has used up without accepting it. -/
def rejected : Fault → List Int
  | drawOutOfRange value _ _ => [value]
  | unwritable cause => cause.rejected
  | _ => []

/-- A fault of a replay, if some values were accepted earlier. -/
def later (earlier : Nat) : Fault → Fault
  | exhausted accepted => exhausted (earlier + accepted)
  | fault => fault

theorem later_later (earlier before : Nat) (fault : Fault) :
    (fault.later before).later earlier = fault.later (earlier + before) := by
  cases fault with
  | exhausted accepted => exact congrArg exhausted (Nat.add_assoc ..).symm
  | _ => rfl

/-- A rejected value is rejected whether or not it can be told. -/
theorem rejected_told (fault : Fault) : fault.told.rejected = fault.rejected := by
  rcases fault.told_eq_or with told | told <;> rw [told]
  rfl

/-- A fault that is told as the exhaustion of a replay is one. -/
theorem eq_exhausted_of_told {fault : Fault} {accepted : Nat}
    (told : fault.told = exhausted accepted) : fault = exhausted accepted := by
  rcases fault.told_eq_or with same | same <;> rw [same] at told
  · exact told
  · cases told

/-- Only an exhausted replay tells how many values were accepted earlier. -/
theorem later_told {fault : Fault} (other : ∀ accepted, fault ≠ exhausted accepted)
    (earlier : Nat) : fault.told.later earlier = fault.told := by
  cases told : fault.told with
  | exhausted accepted => exact absurd (eq_exhausted_of_told told) (other accepted)
  | _ => rfl

end Fault

namespace Halt

/-- The value that a replay has used up without accepting it. -/
def rejected : Halt → List Int
  | refused fault => fault.rejected
  | _ => []

/-- A halt on a replay, if some values were accepted earlier. -/
def later (earlier : Nat) : Halt → Halt
  | refused fault => refused (fault.later earlier)
  | halt => halt

theorem later_later (earlier before : Nat) (halt : Halt) :
    (halt.later before).later earlier = halt.later (earlier + before) := by
  cases halt with
  | refused fault => exact congrArg refused (fault.later_later earlier before)
  | _ => rfl

end Halt

/-! ## Courses on a replay -/

namespace Course

/-- The value that a course has used up without drawing it. -/
def rejected (course : Course Replay) : List Int :=
  match course.outcome with
  | .error halt => halt.rejected
  | .ok _ => []

/-- A course on a replay, if some values were accepted earlier. -/
def later (earlier : Nat) (course : Course Replay) : Course Replay :=
  { course with
    outcome := course.outcome.mapError (Halt.later earlier)
    source := ⟨course.source.values, earlier + course.source.accepted⟩ }

/-- What a course takes from a replay. -/
structure Takes (replay : Replay) (course : Course Replay) : Prop where
  values : replay.values = course.draws.map Draw.value ++ course.rejected ++ course.source.values
  accepted : course.source.accepted = replay.accepted + course.draws.length
  /-- A replay is exhausted when it has no value left, and tells how many were accepted. -/
  exhausted : ∀ accepted, course.outcome = .error (.refused (.exhausted accepted)) →
    course.source = ⟨[], accepted⟩

/-- A course that was exhausted when some number of values had been accepted. -/
structure CutShort (accepted : Nat) (course : Course Replay) : Prop where
  outcome : course.outcome = .error (.refused (.exhausted accepted))
  source : course.source = ⟨[], accepted⟩

theorem rejected_of_ok {course : Course Replay} {value : Int} (ended : course.outcome = .ok value) :
    course.rejected = [] := by
  rw [rejected, ended]

theorem Takes.values_of_ok {replay : Replay} {course : Course Replay} {value : Int}
    (takes : course.Takes replay) (ended : course.outcome = .ok value) :
    replay.values = course.draws.map Draw.value ++ course.source.values := by
  rw [takes.values, rejected_of_ok ended, List.append_nil]

theorem Takes.andThen {replay : Replay} {course : Course Replay}
    {next : Int → Replay → Course Replay} (before : course.Takes replay)
    (after : ∀ value, (next value course.source).Takes course.source) :
    (course.andThen next).Takes replay := by
  cases ended : course.outcome with
  | error halt =>
      have alone : course.andThen next = course := by
        rw [Course.andThen, ended]
      rwa [alone]
  | ok value =>
      have later := after value
      have values := before.values_of_ok ended
      rw [later.values] at values
      have same : (course.andThen next).rejected = (next value course.source).rejected := by
        simp only [Course.andThen, rejected, ended]
      constructor
      · rw [values, same]
        simp [Course.andThen, ended]
      · simp only [Course.andThen, ended, List.length_append]
        rw [later.accepted, before.accepted, Nat.add_assoc]
      · simp only [Course.andThen, ended]
        exact later.exhausted

theorem Takes.recorded {replay : Replay} {course : Course Replay} (takes : course.Takes replay)
    (count sides : Int) : (course.recorded count sides).Takes replay := by
  have source : (course.recorded count sides).source = course.source := by
    unfold Course.recorded
    split <;> rfl
  constructor
  · rw [draws_recorded, rejected, outcome_recorded, source]
    exact takes.values
  · rw [draws_recorded, source]
    exact takes.accepted
  · rw [outcome_recorded, source]
    exact takes.exhausted

theorem later_later (earlier before : Nat) (course : Course Replay) :
    (course.later before).later earlier = course.later (earlier + before) := by
  have outcomes : (course.outcome.mapError (Halt.later before)).mapError (Halt.later earlier) =
      course.outcome.mapError (Halt.later (earlier + before)) := by
    cases course.outcome with
    | error halt => exact congrArg Except.error (halt.later_later earlier before)
    | ok value => rfl
  unfold later
  rw [outcomes, Nat.add_assoc]

theorem later_andThen (earlier : Nat) {course : Course Replay} {next : Int → Replay → Course Replay}
    (later : ∀ value values accepted, next value ⟨values, accepted⟩ =
      (next value ⟨values, 0⟩).later accepted) :
    (course.later earlier).andThen next = (course.andThen next).later earlier := by
  cases ended : course.outcome with
  | error halt => simp [andThen, Course.later, ended, Except.mapError]
  | ok value =>
      have both : next value ⟨course.source.values, earlier + course.source.accepted⟩ =
          (next value course.source).later earlier := by
        rw [later value _ (earlier + course.source.accepted), ← later_later,
          ← later value _ course.source.accepted]
      simp only [andThen, Course.later, ended, Except.mapError]
      rw [both]
      rfl

theorem later_recorded (earlier : Nat) (course : Course Replay) (count sides : Int) :
    (course.later earlier).recorded count sides = (course.recorded count sides).later earlier := by
  cases ended : course.outcome <;> simp [recorded, later, ended, Except.mapError]

/-! ### Requests to a replay -/

variable {sides value : Int} {rest : List Int} {accepted : Nat}

theorem request_replay_fitting (fits : 1 ≤ value ∧ value ≤ sides) :
    request Replay.source sides ⟨value :: rest, accepted⟩ =
      { outcome := .ok value, source := ⟨rest, accepted + 1⟩, requests := [sides],
        draws := [⟨sides, value⟩] } := by
  simp [request, Replay.source, Replay.request, fits]

theorem request_replay_outside (outside : ¬ (1 ≤ value ∧ value ≤ sides)) :
    request Replay.source sides ⟨value :: rest, accepted⟩ =
      { outcome := .error (.refused (Fault.drawOutOfRange value 1 sides).told),
        source := ⟨rest, accepted⟩, requests := [sides] } := by
  simp [request, Replay.source, Replay.request, outside]

end Course

/-- How a course spends the values of replays. -/
structure Spends (course : Replay → Course Replay) : Prop where
  /-- Its draws lead it to the same end, whatever lies behind them. -/
  replays : Replays course course
  fair : ∀ replay, (course replay).Fair
  takes : ∀ replay, (course replay).Takes replay
  later : ∀ values accepted, course ⟨values, accepted⟩ = (course ⟨values, 0⟩).later accepted
  /-- A part of its draws exhausts it. -/
  cutShort : ∀ values accepted number, number < (course ⟨values, accepted⟩).draws.length →
    (course ⟨values.take number, accepted⟩).CutShort (accepted + number)

namespace Spends

theorem done (value : Int) : Spends (Course.done value) where
  replays := .done value
  fair _ := List.forall_mem_nil _
  takes _ := ⟨rfl, rfl, fun _ impossible => (nomatch impossible)⟩
  later _ _ := rfl
  cutShort _ _ _ few := absurd few (Nat.not_lt_zero _)

theorem stopped {halt : Halt} (own : ∀ fault, halt ≠ .refused fault) :
    Spends (Course.stopped halt) where
  replays := .stopped halt
  fair _ := List.forall_mem_nil _
  takes replay := by
    have nothing : halt.rejected = [] := by
      cases halt with
      | refused fault => exact absurd rfl (own fault)
      | overflow result | invalid fault => rfl
    refine ⟨?_, rfl, fun accepted ended => ?_⟩
    · change replay.values = [] ++ halt.rejected ++ replay.values
      rw [nothing]
      rfl
    · cases ended
      exact absurd rfl (own _)
  later values accepted := by
    have same : halt.later accepted = halt := by
      cases halt with
      | refused fault => exact absurd rfl (own fault)
      | overflow result | invalid fault => rfl
    simp [Course.stopped, Course.later, Except.mapError, same]
  cutShort _ _ _ few := absurd few (Nat.not_lt_zero _)

theorem request (sides : Int) : Spends (Course.request Replay.source sides) where
  replays := .request Replay.source sides
  fair replay := by
    obtain ⟨values, accepted⟩ := replay
    cases values with
    | nil => exact List.forall_mem_nil _
    | cons value rest =>
        by_cases fits : 1 ≤ value ∧ value ≤ sides
        · rw [Course.request_replay_fitting fits]
          exact List.forall_mem_singleton.mpr fits
        · rw [Course.request_replay_outside fits]
          exact List.forall_mem_nil _
  takes replay := by
    obtain ⟨values, accepted⟩ := replay
    cases values with
    | nil =>
        refine ⟨rfl, rfl, fun accepted ended => ?_⟩
        cases ended
        rfl
    | cons value rest =>
        by_cases fits : 1 ≤ value ∧ value ≤ sides
        · rw [Course.request_replay_fitting fits]
          exact ⟨rfl, rfl, fun _ impossible => (nomatch impossible)⟩
        · rw [Course.request_replay_outside fits]
          refine ⟨?_, rfl, fun accepted ended => ?_⟩
          · simp only [Course.rejected, Halt.rejected, Fault.rejected_told]
            rfl
          · cases Fault.eq_exhausted_of_told (Halt.refused.inj (Except.error.inj ended))
  later values accepted := by
    cases values with
    | nil => rfl
    | cons value rest =>
        by_cases fits : 1 ≤ value ∧ value ≤ sides
        · rw [Course.request_replay_fitting fits, Course.request_replay_fitting fits]
          simp [Course.later, Except.mapError]
        · have same := @Fault.later_told (.drawOutOfRange value 1 sides) nofun accepted
          rw [Course.request_replay_outside fits, Course.request_replay_outside fits]
          simp only [Course.later, Except.mapError, Halt.later, same]
          rfl
  cutShort values accepted number few := by
    have none : number = 0 := by
      have one : (Course.request Replay.source sides ⟨values, accepted⟩).draws.length ≤ 1 := by
        unfold Course.request
        split <;> simp
      omega
    subst none
    exact ⟨rfl, rfl⟩

/-- A course that succeeds goes as it did on a part of the values that holds its draws. -/
theorem eq_of_take {course : Replay → Course Replay} (spends : Spends course) {values : List Int}
    {accepted number : Nat} {value : Int} (ended : (course ⟨values, accepted⟩).outcome = .ok value)
    (enough : (course ⟨values, accepted⟩).draws.length ≤ number) :
    course ⟨values.take number, accepted⟩ = (course ⟨values, accepted⟩).replayed
      ((course ⟨values, accepted⟩).source.values.take
        (number - (course ⟨values, accepted⟩).draws.length)) accepted := by
  have given : values = _ := (spends.takes ⟨values, accepted⟩).values_of_ok ended
  have again := spends.replays _ (spends.fair ⟨values, accepted⟩) (Course.answered_of_ok ended)
  generalize course ⟨values, accepted⟩ = before at *
  have shortened : values.take number = before.draws.map Draw.value ++
      before.source.values.take (number - before.draws.length) := by
    rw [given, List.take_append, List.length_map, List.take_of_length_le]
    rwa [List.length_map]
  rw [shortened, again]

/-- **Courses that spend values spend them when they are put together.** -/
theorem andThen {course : Replay → Course Replay} {next : Int → Replay → Course Replay}
    (first : Spends course) (second : ∀ value, Spends (next value)) :
    Spends fun replay => (course replay).andThen next where
  replays := first.replays.andThen fun value => (second value).replays
  fair replay := (first.fair replay).andThen fun value => (second value).fair
  takes replay := (first.takes replay).andThen fun value => (second value).takes _
  later values accepted := by
    rw [first.later values accepted]
    exact Course.later_andThen accepted fun value => (second value).later
  cutShort values accepted number few := by
    by_cases early : number < (course ⟨values, accepted⟩).draws.length
    · -- the first course is exhausted already
      have short := first.cutShort values accepted number early
      have alone : (course ⟨values.take number, accepted⟩).andThen next =
          course ⟨values.take number, accepted⟩ := by
        rw [Course.andThen, short.outcome]
      rwa [alone]
    · cases ended : (course ⟨values, accepted⟩).outcome with
      | error halt =>
          simp only [Course.andThen, ended] at few
          exact absurd few early
      | ok value =>
          -- the first course goes as it did, and leaves too few values for the second
          rw [first.eq_of_take ended (Nat.not_lt.mp early)]
          have counted := (first.takes ⟨values, accepted⟩).accepted
          simp only [Course.andThen, ended, List.length_append] at few
          generalize course ⟨values, accepted⟩ = before at *
          obtain ⟨outcome, ⟨left, reached⟩, requests, draws, rolls⟩ := before
          cases ended
          obtain rfl : reached = accepted + draws.length := counted
          simp only at few early
          have short := (second value).cutShort left (accepted + draws.length)
            (number - draws.length) (by omega)
          have sum : accepted + draws.length + (number - draws.length) = accepted + number := by
            omega
          rw [sum] at short
          exact ⟨short.outcome, short.source⟩

theorem recorded {course : Replay → Course Replay} (spends : Spends course) (count sides : Int) :
    Spends fun replay => (course replay).recorded count sides where
  replays := spends.replays.recorded count sides
  fair replay := by
    rw [Course.Fair, Course.draws_recorded]
    exact spends.fair replay
  takes replay := (spends.takes replay).recorded count sides
  later values accepted := by
    rw [spends.later values accepted, Course.later_recorded]
  cutShort values accepted number few := by
    rw [Course.draws_recorded] at few
    have short := spends.cutShort values accepted number few
    have same : (course ⟨values.take number, accepted⟩).recorded count sides =
        course ⟨values.take number, accepted⟩ := by
      rw [Course.recorded, short.outcome]
    rwa [same]

end Spends

/-- **The courses of all expressions spend values.** -/
theorem Expr.spends (rules : Rules) (tree : Expr) : Spends (tree.course Replay.source rules) :=
  tree.course_related_of_requests Replay.source Replay.source rules (fun course _ => Spends course)
    Spends.done (fun _ => Spends.stopped fun _ impossible => (nomatch impossible))
    (fun _ => Spends.stopped fun _ impossible => (nomatch impossible)) Spends.request
    Spends.andThen fun count sides spends => spends.recorded count sides

/-! ## The faults reported -/

/-- A halt that does not pass off a roll that must not begin as a failure of the source. -/
def Halt.Plain : Halt → Prop
  | invalid (.rollCount ..) => True
  | invalid (.sideCount _) => True
  | invalid _ => False
  | _ => True

namespace Halt.Plain

variable {halt : Halt}

theorem of_rollFault? {rules : Rules} {count sides : Int} {fault : Fault}
    (broken : Evaluation.rollFault? rules count sides = some fault) :
    (Halt.invalid fault).Plain := by
  unfold Evaluation.rollFault? at broken
  split at broken
  · cases broken
    trivial
  · split at broken
    · cases broken
      trivial
    · split at broken
      · cases broken
        trivial
      · cases broken

/-- What a plain halt is, apart from a refused request. -/
theorem cases (plain : halt.Plain) : (∃ fault, halt = refused fault) ∨
    halt.rejected = [] ∧ halt.reported.rejected = [] ∧
      ∀ earlier, halt.later earlier = halt ∧ halt.reported.later earlier = halt.reported ∧
        ∀ accepted, halt.reported ≠ .exhausted accepted := by
  -- the evaluator tells the fault of such a halt itself
  have own {fault : Fault} (nothing : fault.rejected = [])
      (other : ∀ accepted, fault ≠ .exhausted accepted) :
      fault.told.rejected = [] ∧ ∀ earlier, fault.told.later earlier = fault.told ∧
        ∀ accepted, fault.told ≠ .exhausted accepted :=
    ⟨(Fault.rejected_told fault).trans nothing, fun earlier => ⟨Fault.later_told other earlier,
      fun accepted told => other accepted (Fault.eq_exhausted_of_told told)⟩⟩
  cases halt with
  | refused fault => exact .inl ⟨fault, rfl⟩
  | overflow result =>
      obtain ⟨nothing, alike⟩ := @own (.overflow result) rfl nofun
      exact .inr ⟨rfl, nothing, fun earlier => ⟨rfl, alike earlier⟩⟩
  | invalid fault =>
      obtain ⟨nothing, alike⟩ : fault.told.rejected = [] ∧ ∀ earlier,
          fault.told.later earlier = fault.told ∧ ∀ accepted, fault.told ≠ .exhausted accepted := by
        cases fault with
        | rollCount count limit => exact own rfl nofun
        | sideCount sides => exact own rfl nofun
        | _ => exact plain.elim
      exact .inr ⟨rfl, nothing, fun earlier => ⟨rfl, alike earlier⟩⟩

theorem rejected_reported (plain : halt.Plain) : halt.reported.rejected = halt.rejected := by
  rcases plain.cases with ⟨fault, rfl⟩ | ⟨nothing, reported, -⟩
  · rfl
  · rw [nothing, reported]

theorem reported_later (plain : halt.Plain) (earlier : Nat) :
    (halt.later earlier).reported = halt.reported.later earlier := by
  rcases plain.cases with ⟨fault, rfl⟩ | ⟨-, -, alike⟩
  · rfl
  · rw [(alike earlier).1, (alike earlier).2.1]

theorem eq_of_exhausted (plain : halt.Plain) {accepted : Nat}
    (reported : halt.reported = .exhausted accepted) : halt = refused (.exhausted accepted) := by
  rcases plain.cases with ⟨fault, rfl⟩ | ⟨-, -, alike⟩
  · exact congrArg refused reported
  · exact absurd reported ((alike 0).2.2 accepted)

end Halt.Plain

/-- **The courses of all expressions halt plainly.** -/
theorem Expr.plain_course {σ : Type} (source : Source σ) (rules : Rules) (tree : Expr) :
    ∀ (state : σ) ⦃halt : Halt⦄, (tree.course source rules state).outcome = .error halt →
      halt.Plain := by
  refine tree.course_related_of_requests source source rules
    (fun course _ => ∀ state ⦃halt⦄, (course state).outcome = .error halt → halt.Plain)
    ?_ ?_ ?_ ?_ ?_ ?_
  · intro value state halt impossible
    cases impossible
  · intro value state halt stops
    cases stops
    trivial
  · intro count sides fault broken state halt stops
    cases stops
    exact .of_rollFault? broken
  · intro sides state halt stops
    unfold Course.request at stops
    split at stops
    · cases stops
    · cases stops
      trivial
  · intro course _ next _ first later state halt stops
    change ((course state).andThen next).outcome = .error halt at stops
    unfold Course.andThen at stops
    split at stops
    · exact first state stops
    · exact later _ _ stops
  · intro course _ count sides plain state halt stops
    rw [Course.outcome_recorded] at stops
    exact plain state stops

end DiceNotation
