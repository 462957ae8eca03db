import DiceNotation.Proofs.Evaluation.Reports
import DiceNotation.Proofs.Evaluation.Trails

/-!
# The draws that finished rolls account for

Finished rolls are recorded with their draws, and every draw is noted on the table when it is made.
As long as nothing has failed, the two agree: the draws of the table are those of its rolls, one
roll after the other (`Table.Accounted`). A roll that is reached begins on such a table, also if its
number of dice or of sides is rolled itself.

A failure ends an evaluation with the same agreement, unless it comes in the middle of a throw. Then
the draws already made for the roll are noted and not recorded. The roll is the last one that was
reached, and what stopped it is the last of these draws, with which the sum left the range, if not
the source itself (`Course.BrokenOff`). The induction is on the expression, and what carries it is
what a trail leaves when it began on an accounted table (`Trail.KeepsAccounts`).
-/

set_option autoImplicit false

namespace DiceNotation

variable {σ : Type}

/-! ## Throws that are stopped -/

namespace Course

/-- What the draws of a throw onto a sum have done when it was stopped: there are no more than there
are dice, each of them left the sum in range except the last, and the throw was stopped because the
source did not answer or because this one did not leave it there. -/
structure BrokenOff (source : Source σ) (sides : Int) (remaining : Nat) (sum : Int) (halt : Halt)
    (draws : List Draw) : Prop where
  sided : ∀ draw ∈ draws, draw.sides = sides
  length_le : draws.length ≤ remaining
  held : ∀ front rest, draws = front ++ rest → front ≠ [] → rest ≠ [] →
    Word.Holds (sum + (front.map Draw.value).sum)
  halts : (∃ fault state, (source.request 1 sides state).1 = .error fault ∧
      halt = .refused fault) ∨
    draws ≠ [] ∧ ¬ Word.Holds (sum + (draws.map Draw.value).sum) ∧
      halt = .overflow (sum + (draws.map Draw.value).sum)

variable {source : Source σ} {rules : Rules} {sides sum : Int} {remaining : Nat} {state : σ}
  {halt : Halt}

/-- A draw that leaves the sum in range can come before the draws of a stopped throw. -/
theorem BrokenOff.behind {value : Int} {draws : List Draw} (inside : Word.Holds (sum + value))
    (later : BrokenOff source sides remaining (sum + value) halt draws) :
    BrokenOff source sides (remaining + 1) sum halt (⟨sides, value⟩ :: draws) where
  sided := List.forall_mem_cons.mpr ⟨rfl, later.sided⟩
  length_le := Nat.succ_le_succ later.length_le
  held front rest whole present more := by
    obtain ⟨first, front, rfl⟩ := List.exists_cons_of_ne_nil present
    rw [List.cons_append] at whole
    obtain ⟨rfl, split⟩ := List.cons.inj whole
    rw [List.map_cons, List.sum_cons, ← Int.add_assoc]
    by_cases empty : front = []
    · simpa [empty] using inside
    · exact later.held front rest split empty more
  halts := by
    rw [List.map_cons, List.sum_cons, ← Int.add_assoc]
    exact later.halts.imp_right fun ⟨_, overflow⟩ => ⟨List.cons_ne_nil _ _, overflow⟩

/-- **A throw that is stopped is broken off** by its source or by its last draw. -/
theorem dice_brokenOff (stops : (dice source sides remaining sum state).outcome = .error halt) :
    BrokenOff source sides remaining sum halt (dice source sides remaining sum state).draws := by
  induction remaining generalizing sum state with
  | zero => cases stops
  | succ remaining ih =>
      rcases answer : source.request 1 sides state with ⟨fault | value, next⟩
      · rw [dice_of_refused answer] at stops ⊢
        cases stops
        refine ⟨List.forall_mem_nil _, Nat.zero_le _, ?_, .inl ⟨fault, state, by rw [answer], rfl⟩⟩
        intro front rest whole present
        exact absurd (List.append_eq_nil_iff.mp whole.symm).1 present
      · by_cases inside : Word.Holds (sum + value)
        · rw [dice_of_answer answer inside] at stops ⊢
          exact (ih stops).behind inside
        · rw [dice_of_overflow answer inside] at stops ⊢
          cases stops
          refine ⟨List.forall_mem_singleton.mpr rfl, Nat.succ_le_succ (Nat.zero_le _), ?_, .inr ?_⟩
          · intro front rest whole present more
            have one := congrArg List.length whole
            have := List.length_pos_iff.mpr present
            have := List.length_pos_iff.mpr more
            simp only [Course.behind, stopped, List.length_singleton, List.length_append] at one
            omega
          · simpa [Course.behind, stopped] using inside

end Course

/-! ## Accounts -/

/-- The draws of a finished roll, each with the sides of its dice. -/
def DieRoll.drawn (roll : DieRoll) : List Draw :=
  roll.draws.map fun value => ⟨roll.sides, value⟩

/-- The draws of a table are those of its rolls, one roll after the other. -/
def Table.Accounted (table : Table σ) : Prop :=
  table.draws.toList = table.rolls.toList.flatMap DieRoll.drawn

theorem Table.Accounted.after {table : Table σ} {course : Course σ} (accounted : table.Accounted)
    (same : course.draws = course.rolls.flatMap DieRoll.drawn) :
    (table.after course).Accounted := by
  have before : table.draws.toList = table.rolls.toList.flatMap DieRoll.drawn := accounted
  simp [Table.Accounted, Table.after, before, same]

/-- A roll that was reached on an accounted table is broken off: the draws made for it are noted on
the table that is left, and no roll is recorded for them. -/
structure Arrival.BrokenOff (source : Source σ) (arrival : Arrival σ) (fault : Fault)
    (left : Table σ) (made : List Draw) : Prop where
  begun : arrival.table.Accounted
  one_le_count : 1 ≤ arrival.count
  one_le_sides : 1 ≤ arrival.sides
  rolls : left.rolls = arrival.table.rolls
  draws : left.draws.toList = arrival.table.draws.toList ++ made
  stopped : ∃ halt, fault = halt.reported ∧
    Course.BrokenOff source arrival.sides arrival.count.toNat 0 halt made

/-- **A roll that fails leaves the accounts as they were, or it is broken off**, if rolls are
recorded. -/
theorem Evaluation.roll_of_error {source : Source σ} {rules : Rules} {count sides : Int}
    {table : Table σ} {halt : Halt} (record : rules.record = true) (accounted : table.Accounted)
    (stops : (Course.roll source rules count sides table.source).outcome = .error halt) :
    let left := table.after (Course.roll source rules count sides table.source)
    left.Accounted ∨
      ∃ made, Arrival.BrokenOff source ⟨count, sides, table⟩ halt.reported left made := by
  have rolls := Course.rolls_of_roll_error stops
  rw [course_roll_eq] at stops rolls ⊢
  cases fault : rollFault? rules count sides with
  | some fault =>
      refine .inl ?_
      simpa only [table.after_stopped] using accounted
  | none =>
      obtain ⟨one_le_count, -, one_le_sides⟩ := rollFault?_eq_none_iff.mp fault
      simp only [fault, record, if_true, Course.outcome_recorded] at stops rolls ⊢
      refine .inr ⟨(Course.dice source sides count.toNat 0 table.source).draws,
        accounted, one_le_count, one_le_sides, ?_, ?_, halt, rfl, Course.dice_brokenOff stops⟩
      · simp [Table.after, rolls]
      · simp [Table.after, Course.draws_recorded]

/-- The draws of a throw that nothing stops are those of a roll with its sides. -/
theorem Course.Completes.drawn {sides sum total : Int} {remaining : Nat} {draws : List Draw}
    (completes : Completes sides remaining sum total draws) (count : Int) :
    DieRoll.drawn ⟨count, sides, draws.map Draw.value⟩ = draws := by
  rw [DieRoll.drawn, List.map_map]
  have same : ∀ draw ∈ draws, Draw.mk sides draw.value = draw := fun draw member => by
    rw [← completes.sides draw member]
  exact (List.map_congr_left same).trans (List.map_id' draws)

/-- What a trail leaves that began on an accounted table: the table left is accounted as well, or
the roll that was reached last is broken off. -/
structure Trail.KeepsAccounts (source : Source σ) (trail : Trail σ) : Prop where
  succeeded : ∀ total left, trail.played = (.ok total, left) → left.Accounted
  failed : ∀ fault left, trail.played = (.error fault, left) →
    left.Accounted ∨ ∃ arrival made, trail.arrivals.getLast? = some arrival ∧
      arrival.BrokenOff source fault left made

namespace Trail.KeepsAccounts

variable {source : Source σ} {rules : Rules} {table : Table σ}

theorem of_accounted {trail : Trail σ} (accounted : trail.played.2.Accounted) :
    trail.KeepsAccounts source where
  succeeded total left ended := by
    rw [ended] at accounted
    exact accounted
  failed fault left ended := by
    rw [ended] at accounted
    exact .inl accounted

/-- **A node keeps the accounts**, if rolls are recorded. -/
theorem node (record : rules.record = true) (layer : Layer Int) (accounted : table.Accounted) :
    (Trail.node source rules layer table).KeepsAccounts source := by
  match layer with
  | .literal value | .unary .identity value | .unary .negate value | .binary .add left right
  | .binary .subtract left right => exact of_accounted accounted
  | .binary (.roll isImplicit) count sides =>
    have played : (Trail.node source rules (.binary (.roll isImplicit) count sides) table).played =
        _ := Evaluation.follows_roll source rules count sides table
    cases ended : (Course.roll source rules count sides table.source).outcome with
    | ok total =>
        obtain ⟨-, completes, rolls⟩ := Course.roll_completes ended
        rw [if_pos record] at rolls
        refine of_accounted ?_
        rw [played]
        refine accounted.after ?_
        rw [rolls, List.flatMap_singleton, completes.drawn]
    | error halt =>
        rw [ended] at played
        refine ⟨fun total left impossible => ?_, fun fault left failed => ?_⟩
        · rw [played] at impossible
          cases impossible
        · rw [played] at failed
          cases failed
          exact (Evaluation.roll_of_error record accounted ended).imp_right
            fun ⟨made, broken⟩ => ⟨_, made, rfl, broken⟩

/-- **A trail that goes on keeps the accounts if its parts do.** -/
theorem andThen {trail : Trail σ} {next : Int → Table σ → Trail σ}
    (before : trail.KeepsAccounts source)
    (later : ∀ value middle, middle.Accounted → (next value middle).KeepsAccounts source) :
    (trail.andThen next).KeepsAccounts source := by
  rcases begun : trail.played with ⟨fault | value, middle⟩
  · rwa [andThen_of_error begun]
  · have rest := later value middle (before.succeeded value middle begun)
    rw [andThen_of_ok begun]
    refine ⟨rest.succeeded, fun fault left ended => ?_⟩
    refine (rest.failed fault left ended).imp_right ?_
    rintro ⟨arrival, made, last, broken⟩
    exact ⟨arrival, made, by rw [List.getLast?_append, last, Option.some_or], broken⟩

end Trail.KeepsAccounts

/-- **An evaluation keeps the accounts of its table**, if rolls are recorded. -/
theorem Expr.trail_keepsAccounts (source : Source σ) {rules : Rules} (record : rules.record = true)
    (tree : Expr) : ∀ {table : Table σ}, table.Accounted →
      (tree.trail source rules table).KeepsAccounts source := by
  induction tree with
  | literal value => exact fun accounted => .node record (.literal value) accounted
  | unary sign operand ih =>
      intro table accounted
      exact (ih accounted).andThen fun value middle => .node record (.unary sign value)
  | binary operation left right ihLeft ihRight =>
      intro table accounted
      exact (ihLeft accounted).andThen fun first middle accounted =>
        (ihRight accounted).andThen fun second last =>
          .node record (.binary operation first second)

/-! ## Rolls of a notation -/

/-- A roll that was reached has drawn dice until their sum left the range with the last one, which
the fault tells. -/
structure Arrival.Overflows (arrival : Arrival σ) (made : List Draw) (fault : Fault) : Prop where
  present : made ≠ []
  sided : ∀ draw ∈ made, draw.sides = arrival.sides
  length_le : (made.length : Int) ≤ arrival.count
  held : ∀ front rest, made = front ++ rest → front ≠ [] → rest ≠ [] →
    Word.Holds (front.map Draw.value).sum
  outside : ¬ Word.Holds (made.map Draw.value).sum
  fault : fault = .overflow (made.map Draw.value).sum

theorem Halt.reported_overflow {result : Int}
    (told : reported (.overflow result) ≠ .unwritable (.overflow result)) :
    reported (.overflow result) = .overflow result :=
  (Fault.overflow result).told_eq_or.resolve_right told

/-- A roll that is broken off overflows, if the source always answers and the fault can be told. -/
theorem Arrival.BrokenOff.overflows {source : Source σ} {arrival : Arrival σ} {fault : Fault}
    {left : Table σ} {made : List Draw} (answers : source.Answers)
    (told : ∀ result, fault ≠ .unwritable (.overflow result))
    (broken : arrival.BrokenOff source fault left made) : arrival.Overflows made fault := by
  obtain ⟨halt, rfl, short⟩ := broken.stopped
  have one := broken.one_le_count
  have few := short.length_le
  have held := short.held
  rcases short.halts with ⟨refused, state, answer, -⟩ | ⟨present, outside, overflow⟩
  · obtain ⟨value, given⟩ := answers arrival.sides state broken.one_le_sides
    cases given.symm.trans answer
  · simp only [Int.zero_add] at held outside overflow
    rw [overflow] at told ⊢
    exact ⟨present, short.sided, by omega, held, outside, Halt.reported_overflow (told _)⟩

/-- **The draws of a roll of a notation** are those of its recorded rolls. If it fails they are
followed by those made for the roll that was reached last, if this has overflowed. -/
theorem rollDetailed_draws {source : Source σ} (fair : source.FairDice) (answers : source.Answers)
    (state : σ) (limits : Limits) (text : String) :
    let rolled := rollDetailed source state limits text
    (∀ result, rolled.outcome = .ok result →
      rolled.table.draws.toList = result.rolls.flatMap DieRoll.drawn) ∧
    ∀ fault, rolled.outcome = .error fault →
      ∃ made, rolled.table.draws.toList =
          rolled.table.rolls.toList.flatMap DieRoll.drawn ++ made ∧
        (made = [] ∨ ∃ tree arrival, Expr.parse text limits.maxDepth = .ok tree ∧
          (tree.trail source ⟨true, limits.maxDice⟩ ⟨state, #[], #[]⟩).arrivals.getLast? =
            some arrival ∧
          arrival.table.rolls = rolled.table.rolls ∧ arrival.Overflows made fault) := by
  intro rolled
  have told (fault : Fault) (fails : rolled.outcome = .error fault) (result : Int) :
      fault ≠ .unwritable (.overflow result) :=
    rollDetailed_ne_unwritable_overflow fair answers fails result
  unfold rolled rollDetailed play at *
  cases read : Expr.parse text limits.maxDepth with
  | error fault =>
      simp only [read] at told ⊢
      refine ⟨fun result impossible => (nomatch impossible), fun fault _ => ⟨[], rfl, .inl rfl⟩⟩
  | ok tree =>
      have fresh : (Table.mk state #[] #[]).Accounted := rfl
      have record : (Rules.mk true limits.maxDice).record = true := rfl
      have keeps := tree.trail_keepsAccounts source record fresh
      have played := tree.played_trail source ⟨true, limits.maxDice⟩ ⟨state, #[], #[]⟩
      simp only [read] at told ⊢
      rcases ended : (Table.mk state #[] #[]).evaluate source ⟨true, limits.maxDice⟩ tree with
        ⟨fault | total, left⟩
      · rw [ended] at played
        simp only [ended] at told
        refine ⟨fun result impossible => (nomatch impossible), ?_⟩
        rintro _ ⟨⟩
        rcases keeps.failed fault left played with accounted | ⟨arrival, made, last, broken⟩
        · exact ⟨[], by rw [List.append_nil]; exact accounted, .inl rfl⟩
        · have overflows := broken.overflows answers (told fault rfl)
          refine ⟨made, ?_, .inr ⟨tree, arrival, rfl, last, broken.rolls.symm, overflows⟩⟩
          rw [broken.draws, broken.rolls]
          exact congrArg (· ++ made) broken.begun
      · rw [ended] at played
        refine ⟨?_, fun fault impossible => (nomatch impossible)⟩
        rintro _ ⟨⟩
        exact keeps.succeeded total left played

end DiceNotation
