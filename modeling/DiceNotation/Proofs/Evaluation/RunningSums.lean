import DiceNotation.Proofs.Evaluation.Reports

/-!
# The running sum of a roll

A roll adds its dice one by one and checks the sum after each of them, where it could have added
them all and checked once. With fair dice the two come to the same. A source that is asked for one
die after the other answers with a sequence of draws (`Source.Deals`), and the sums of its first
draws only grow. So none of them is below the range of a word, and if the whole sum is in range then
all are, which is why no check on the way can fail on its own (`Course.dice_of_sum_le`). If the
whole sum is too large, then the roll stops at the first of the sums that is
(`Course.dice_of_lt_sum`), and what would have been drawn behind it is left to the source.

The main statement is `roll_checks_whole_sum`. It holds of any number of dice and any number of
sides. The fault tells the sum that left the range, if this sum can be written, and with sides in
the range of a word it always can.
-/

set_option autoImplicit false

namespace DiceNotation

variable {σ : Type}

/-! ## Draws in a row -/

/-- A source that is asked for a die with some sides again and again answers with these draws, and
goes through these states. So much is known of the first answers, up to some number, and each of
them is a side of the die. -/
structure Source.Deals (source : Source σ) (sides : Int) (number : Nat) (state : σ)
    (states : Nat → σ) (draws : Nat → Int) : Prop where
  start : states 0 = state
  answers : ∀ turn < number,
    source.request 1 sides (states turn) = (.ok (draws turn), states (turn + 1))
  shows : ∀ turn < number, 1 ≤ draws turn ∧ draws turn ≤ sides

/-- The first of some draws, as draws of a die. -/
def firstDraws (sides : Int) (draws : Nat → Int) (number : Nat) : List Draw :=
  (List.range number).map fun turn => ⟨sides, draws turn⟩

theorem firstDraws_succ (sides : Int) (draws : Nat → Int) (number : Nat) :
    firstDraws sides draws (number + 1) =
      firstDraws sides draws number ++ [⟨sides, draws number⟩] := by
  rw [firstDraws, List.range_succ, List.map_append]
  rfl

namespace Source.Deals

variable {source : Source σ} {sides : Int} {number : Nat} {state : σ} {states : Nat → σ}
  {draws : Nat → Int}

/-- The sums of the first draws grow. -/
theorem sum_mono (deals : source.Deals sides number state states draws) {few many : Nat}
    (fewer : few ≤ many) (known : many ≤ number) :
    ∑ turn ∈ Finset.range few, draws turn ≤ ∑ turn ∈ Finset.range many, draws turn := by
  refine Finset.sum_le_sum_of_subset_of_nonneg (Finset.range_mono fewer) fun turn inside _ => ?_
  have shown := deals.shows turn (by have := Finset.mem_range.mp inside; omega)
  omega

/-- A sum of the first draws is in range if it is not above it. -/
theorem holds_sum (deals : source.Deals sides number state states draws) {made : Nat}
    (known : made ≤ number) (bound : ∑ turn ∈ Finset.range made, draws turn ≤ Word.greatest) :
    Word.Holds (∑ turn ∈ Finset.range made, draws turn) := by
  have positive := deals.sum_mono (Nat.zero_le made) known
  have below : Word.least ≤ 0 := by decide
  rw [Finset.range_zero, Finset.sum_empty] at positive
  exact ⟨below.trans positive, bound⟩

/-- **If the whole sum is above the range, then some draw is the first to lead there.** -/
theorem exists_first (large : Word.greatest < ∑ turn ∈ Finset.range number, draws turn) :
    ∃ turn < number, ∑ earlier ∈ Finset.range turn, draws earlier ≤ Word.greatest ∧
      IsLeast {made | Word.greatest < ∑ earlier ∈ Finset.range made, draws earlier} (turn + 1) := by
  classical
  have some : ∃ made, Word.greatest < ∑ turn ∈ Finset.range made, draws turn := ⟨number, large⟩
  have within : Nat.find some ≤ number := Nat.find_min' some large
  have least : IsLeast {made | Word.greatest < ∑ earlier ∈ Finset.range made, draws earlier}
      (Nat.find some) :=
    ⟨Nat.find_spec some, fun made beyond => Nat.find_min' some beyond⟩
  cases first : Nat.find some with
  | zero =>
      -- no draw at all leaves the sum at zero
      have beyond := Nat.find_spec some
      rw [first, Finset.range_zero, Finset.sum_empty] at beyond
      exact absurd beyond (by decide)
  | succ turn =>
      rw [first] at within least
      exact ⟨turn, within, not_lt.mp (Nat.find_min some (by omega)), least⟩

/-- A source that writes down what it is asked answers with the same draws. -/
theorem logged (deals : source.Deals sides number state states draws) (log : List (Int × Int)) :
    source.logged.Deals sides number (state, log)
      (fun turn => (states turn, log ++ List.replicate turn (1, sides))) draws where
  start := by rw [deals.start, List.replicate_zero, List.append_nil]
  answers turn inside := by
    simp only [Source.logged, deals.answers turn inside, List.append_assoc,
      ← List.replicate_succ']
  shows := deals.shows

end Source.Deals

/-! ## Throws -/

namespace Course

variable {source : Source σ} {rules : Rules} {count sides : Int} {number : Nat} {state : σ}
  {states : Nat → σ} {draws : Nat → Int}

/-- A course behind some answered requests. -/
def behindAll (draws : List Draw) (course : Course σ) : Course σ :=
  { course with
    requests := draws.map Draw.sides ++ course.requests
    draws := draws ++ course.draws }

theorem behindAll_behind (earlier : List Draw) (draw : Draw) (course : Course σ) :
    (course.behind draw).behindAll earlier = course.behindAll (earlier ++ [draw]) := by
  simp [behindAll, behind]

/-- **A throw goes on as long as the sum stays in range.** -/
theorem dice_of_held (deals : source.Deals sides number state states draws) {made : Nat}
    (known : made ≤ number) (bound : ∑ turn ∈ Finset.range made, draws turn ≤ Word.greatest)
    (remaining : Nat) :
    dice source sides (made + remaining) 0 state =
      (dice source sides remaining (∑ turn ∈ Finset.range made, draws turn)
        (states made)).behindAll (firstDraws sides draws made) := by
  induction made generalizing remaining with
  | zero =>
      rw [deals.start, Nat.zero_add]
      rfl
  | succ made ih =>
      have before := (deals.sum_mono (Nat.le_succ made) known).trans bound
      have inside := deals.holds_sum known bound
      rw [Finset.sum_range_succ] at inside
      rw [Nat.add_right_comm, Nat.add_assoc, ih (Nat.le_of_succ_le known) before,
        dice_of_answer (deals.answers made known) inside, behindAll_behind, ← firstDraws_succ,
        Finset.sum_range_succ]

/-- **Dice whose whole sum is not above the range are all thrown.** -/
theorem dice_of_sum_le (deals : source.Deals sides number state states draws)
    (bound : ∑ turn ∈ Finset.range number, draws turn ≤ Word.greatest) :
    dice source sides number 0 state =
      (done (∑ turn ∈ Finset.range number, draws turn) (states number)).behindAll
        (firstDraws sides draws number) :=
  dice_of_held deals le_rfl bound 0

/-- **Dice whose whole sum is above the range are thrown up to the first sum that is.** -/
theorem dice_of_lt_sum (deals : source.Deals sides number state states draws)
    (large : Word.greatest < ∑ turn ∈ Finset.range number, draws turn) :
    ∃ made ≤ number,
      IsLeast {made | Word.greatest < ∑ turn ∈ Finset.range made, draws turn} made ∧
      dice source sides number 0 state =
        (stopped (.overflow (∑ turn ∈ Finset.range made, draws turn)) (states made)).behindAll
          (firstDraws sides draws made) := by
  obtain ⟨turn, inside, bound, least⟩ := Source.Deals.exists_first large
  obtain ⟨remaining, rfl⟩ : ∃ remaining, number = turn + (remaining + 1) :=
    ⟨number - turn - 1, by omega⟩
  have beyond : ¬ Word.Holds (∑ earlier ∈ Finset.range turn, draws earlier + draws turn) := by
    rw [← Finset.sum_range_succ]
    exact fun holds => absurd holds.2 (not_le.mpr least.1)
  refine ⟨turn + 1, inside, least, ?_⟩
  rw [dice_of_held deals inside.le bound, dice_of_overflow (deals.answers turn inside) beyond,
    behindAll_behind, ← firstDraws_succ, Finset.sum_range_succ]

end Course

/-! ## Rolls -/

namespace Evaluation

variable {source : Source σ} {rules : Rules} {count sides : Int} {table : Table σ}
  {states : Nat → σ} {draws : Nat → Int}

/-- A roll that may begin throws its dice, and is recorded where the rules ask for it. -/
theorem roll_on_eq (begins : rollFault? rules count sides = none) :
    (roll source rules count sides).on table =
      let thrown := Course.dice source sides count.toNat 0 table.source
      (thrown.outcome.mapError Halt.reported,
        table.after (if rules.record then thrown.recorded count sides else thrown)) := by
  have followed := follows_roll source rules count sides table
  rw [course_roll_eq, begins] at followed
  rw [followed]
  cases rules.record with
  | true => simp only [if_true, Course.outcome_recorded]
  | false => rfl

theorem roll_of_sum_le (begins : rollFault? rules count sides = none)
    (deals : source.Deals sides count.toNat table.source states draws)
    (bound : ∑ turn ∈ Finset.range count.toNat, draws turn ≤ Word.greatest) :
    (roll source rules count sides).on table =
      (.ok (∑ turn ∈ Finset.range count.toNat, draws turn),
        ⟨states count.toNat,
          if rules.record then
            table.rolls.push ⟨count, sides, (List.range count.toNat).map draws⟩
          else table.rolls,
          table.draws ++ (firstDraws sides draws count.toNat).toArray⟩) := by
  have values : (firstDraws sides draws count.toNat).map Draw.value =
      (List.range count.toNat).map draws :=
    List.map_map
  rw [roll_on_eq begins, Course.dice_of_sum_le deals bound]
  cases rules.record <;>
    simp [Course.behindAll, Course.done, Course.recorded, Table.after, Except.mapError, values]

theorem roll_of_lt_sum (begins : rollFault? rules count sides = none)
    (deals : source.Deals sides count.toNat table.source states draws)
    (large : Word.greatest < ∑ turn ∈ Finset.range count.toNat, draws turn) :
    ∃ made ≤ count.toNat,
      IsLeast {made | Word.greatest < ∑ turn ∈ Finset.range made, draws turn} made ∧
      (roll source rules count sides).on table =
        (.error (Halt.overflow (∑ turn ∈ Finset.range made, draws turn)).reported,
          ⟨states made, table.rolls, table.draws ++ (firstDraws sides draws made).toArray⟩) := by
  obtain ⟨made, known, least, thrown⟩ := Course.dice_of_lt_sum deals large
  refine ⟨made, known, least, ?_⟩
  rw [roll_on_eq begins, thrown]
  cases rules.record <;>
    simp [Course.behindAll, Course.stopped, Course.recorded, Table.after, Except.mapError]

end Evaluation

/-- A result that is told is the one that left the range. -/
theorem Halt.eq_of_reported_eq_overflow {result other : Int}
    (told : (overflow result).reported = .overflow other) : result = other := by
  rcases (Fault.overflow result).told_eq_or with same | same
  · exact Fault.overflow.inj (same.symm.trans told)
  · cases same.symm.trans told

/-- The first sum above the range can be written, if the sides of the dice are in range. -/
theorem Source.Deals.reported_overflow {source : Source σ} {sides : Int} {number made : Nat}
    {state : σ} {states : Nat → σ} {draws : Nat → Int}
    (deals : source.Deals sides number state states draws) (known : made ≤ number)
    (least : IsLeast {made | Word.greatest < ∑ turn ∈ Finset.range made, draws turn} made)
    (inRange : sides ≤ Word.greatest) :
    (Halt.overflow (∑ turn ∈ Finset.range made, draws turn)).reported =
      .overflow (∑ turn ∈ Finset.range made, draws turn) := by
  have written : Text.isWritable (∑ turn ∈ Finset.range made, draws turn) = true := by
    have above : Word.greatest < _ := least.1
    cases made with
    | zero =>
        rw [Finset.range_zero, Finset.sum_empty] at above
        exact absurd above (by decide)
    | succ turn =>
        have before : ¬ Word.greatest < ∑ earlier ∈ Finset.range turn, draws earlier :=
          fun beyond => absurd (least.2 beyond) (by omega)
        have shown := deals.shows turn known
        rw [Finset.sum_range_succ] at above ⊢
        refine Text.isWritable_of_close ?_ ?_ <;>
          · simp only [Word.least, Word.greatest] at above before inRange ⊢
            omega
  exact Fault.told_of_isWritable (by rwa [Fault.isWritable_overflow])

/-! ## The main statement -/

/-- **Checking the sum after each die is checking the whole sum.**

A roll within the limits is thrown with fair dice, from a source that answers with some draws. It
ends in the sum of all of its draws exactly if this sum is not above the range. Then it has asked
for every die, and is recorded where the rules ask for it. Otherwise it ends in an overflow. It has
asked for the least number of dice whose sum is above the range, nothing is recorded, and the fault
tells this sum if the sides are in range. A sum below the range is never told. -/
theorem roll_checks_whole_sum (source : Source σ) (rules : Rules) (table : Table σ)
    {count sides : Int} {states : Nat → σ} {draws : Nat → Int} (dice : 1 ≤ count)
    (limited : ∀ limit ∈ rules.maxDice, count ≤ limit) (sided : 1 ≤ sides)
    (deals : source.Deals sides count.toNat table.source states draws) (log : List (Int × Int)) :
    let sum (number : Nat) := ∑ turn ∈ Finset.range number, draws turn
    let rolled := (Evaluation.roll source rules count sides).on table
    let noted := ⟨(table.source, log), table.rolls, table.draws⟩
    let asked := ((Evaluation.roll source.logged rules count sides).on noted).2.source.2
    (∀ total, rolled.1 = .ok total ↔
      total = sum count.toNat ∧ sum count.toNat ≤ Word.greatest) ∧
    (sum count.toNat ≤ Word.greatest →
      rolled.2 = ⟨states count.toNat,
        if rules.record then table.rolls.push ⟨count, sides, (List.range count.toNat).map draws⟩
        else table.rolls,
        table.draws ++ (firstDraws sides draws count.toNat).toArray⟩ ∧
      asked = log ++ List.replicate count.toNat (1, sides)) ∧
    (Word.greatest < sum count.toNat →
      ∃ made ≤ count.toNat, IsLeast {number | Word.greatest < sum number} made ∧
        rolled = (.error (Halt.overflow (sum made)).reported,
          ⟨states made, table.rolls, table.draws ++ (firstDraws sides draws made).toArray⟩) ∧
        asked = log ++ List.replicate made (1, sides) ∧
        (sides ≤ Word.greatest → (Halt.overflow (sum made)).reported = .overflow (sum made))) ∧
    ∀ result, rolled.1 = .error (.overflow result) → Word.greatest < result := by
  intro sum rolled noted asked
  have begins := Evaluation.rollFault?_eq_none_iff.mpr ⟨dice, limited, sided⟩
  have watched : source.logged.Deals sides count.toNat noted.source _ draws := deals.logged log
  rcases le_or_gt (sum count.toNat) Word.greatest with bound | large
  · have whole : rolled = (.ok (sum count.toNat), _) := Evaluation.roll_of_sum_le begins deals bound
    refine ⟨fun total => ?_, fun _ => ⟨by rw [whole], ?_⟩, fun large => ?_, fun result fails => ?_⟩
    · rw [whole]
      simp only [Except.ok.injEq, bound, and_true]
      exact eq_comm
    · simp only [asked, Evaluation.roll_of_sum_le begins watched bound]
    · exact absurd large (not_lt.mpr bound)
    · rw [whole] at fails
      cases fails
  · obtain ⟨made, known, least, stopped⟩ := Evaluation.roll_of_lt_sum begins deals large
    obtain ⟨made', -, least', stopped'⟩ := Evaluation.roll_of_lt_sum begins watched large
    obtain rfl := least.unique least'
    have stops : rolled = _ := stopped
    refine ⟨fun total => ?_, fun bound => ?_, fun _ => ⟨made, known, least, stops, ?_, ?_⟩,
      fun result fails => ?_⟩
    · rw [stops]
      simp [not_le.mpr large]
    · exact absurd large (not_lt.mpr bound)
    · simp only [asked, noted, stopped']
    · exact deals.reported_overflow known least
    · rw [stops] at fails
      exact Halt.eq_of_reported_eq_overflow (Except.error.inj fails) ▸ least.1

/-- Five dice with as many sides as a number can have: the first two come to the greatest number in
range, the third leaves the range, and the last two are not thrown. -/
theorem roll_stops_at_third_die :
    let values : List Int := [Word.greatest - 1, 1, 1, 7, 7]
    let states (turn : Nat) : Replay := ⟨values.drop turn, turn⟩
    let draws (turn : Nat) : Int := values.getD turn 0
    let rules : Rules := ⟨true, some 5⟩
    (1 : Int) ≤ 5 ∧ (∀ limit ∈ rules.maxDice, (5 : Int) ≤ limit) ∧ 1 ≤ Word.greatest ∧
      Replay.source.Deals Word.greatest 5 ⟨values, 0⟩ states draws ∧
      (Evaluation.roll Replay.source rules 5 Word.greatest).on ⟨⟨values, 0⟩, #[], #[]⟩ =
        (.error (.overflow (Word.greatest + 1)),
          ⟨⟨[7, 7], 3⟩, #[],
            #[⟨Word.greatest, Word.greatest - 1⟩, ⟨Word.greatest, 1⟩, ⟨Word.greatest, 1⟩]⟩) := by
  intro values states draws rules
  have limited : ∀ limit ∈ rules.maxDice, (5 : Int) ≤ limit := by simp [rules]
  have sided : 1 ≤ Word.greatest := by decide
  have deals : Replay.source.Deals Word.greatest (5 : Int).toNat ⟨values, 0⟩ states draws :=
    ⟨rfl, by decide, by decide⟩
  have third : IsLeast {number | Word.greatest < ∑ turn ∈ Finset.range number, draws turn} 3 := by
    refine ⟨by decide, fun number beyond => not_lt.mp fun fewer => ?_⟩
    interval_cases number <;> exact absurd beyond (by decide)
  have five : (1 : Int) ≤ 5 := by decide
  obtain ⟨-, -, stops, -⟩ :=
    roll_checks_whole_sum Replay.source rules ⟨⟨values, 0⟩, #[], #[]⟩ five limited sided deals []
  obtain ⟨made, -, least, rolled, -, told⟩ := stops (by decide)
  obtain rfl := least.unique third
  rw [told le_rfl] at rolled
  exact ⟨five, limited, sided, deals, rolled⟩

end DiceNotation
