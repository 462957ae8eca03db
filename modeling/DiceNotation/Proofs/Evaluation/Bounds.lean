import DiceNotation.Proofs.Evaluation.FinishedNodes

/-!
# The least and the greatest total

How little and how much a notation can come to is told by its expression alone, without drawing
(`Expr.bounds`). A literal is its own bounds, a minus turns them around, and sums and differences
take them end by end. A roll throws at least one die, and each of its dice comes to at least one and
to at most the greatest number of sides.

Counts and sides are values of expressions and may be negative, and then the product of their bounds
bounds nothing. A roll with such a number is refused. A roll that is finished has at least one die
with at least one side, and the product grows with both (`DieRoll.Obeys.within_bounds`).

With a source that throws fair dice, every value that an evaluation computes lies within the bounds
of its node, whether the evaluation succeeds or not (`Table.within_watch`). The main statement
`total_stays_within_bounds` adds the total, which is the value of the whole expression.
-/

set_option autoImplicit false

namespace DiceNotation

variable {σ : Type}

/-! ## Bounds -/

/-- A least and a greatest number. -/
structure Bounds where
  low : Int
  high : Int
deriving DecidableEq

namespace Bounds

/-- A number lies between the bounds. -/
def Contains (bounds : Bounds) (value : Int) : Prop :=
  bounds.low ≤ value ∧ value ≤ bounds.high

/-- The bounds of what an operation makes of two numbers within bounds. -/
def join : Operation → Bounds → Bounds → Bounds
  | .add, left, right => ⟨left.low + right.low, left.high + right.high⟩
  | .subtract, left, right => ⟨left.low - right.high, left.high - right.low⟩
  | .roll _, count, sides => ⟨max 1 count.low, count.high * sides.high⟩

end Bounds

/-- The bounds of the total of an expression. -/
def Expr.bounds : Expr → Bounds
  | literal value => ⟨value, value⟩
  | unary .identity operand => operand.bounds
  | unary .negate operand => ⟨-operand.bounds.high, -operand.bounds.low⟩
  | binary operation left right => .join operation left.bounds right.bounds

/-! ## One roll -/

/-- **A roll that keeps the rules comes to a total within the bounds of its numbers**, if its dice
are fair. -/
theorem DieRoll.Obeys.within_bounds {source : Source σ} {rules : Rules} {roll : DieRoll}
    {isImplicit : Bool} {count sides : Bounds} (obeys : roll.Obeys source rules)
    (fair : source.FairDice) (counted : count.Contains roll.count)
    (sided : sides.Contains roll.sides) :
    (Bounds.join (.roll isImplicit) count sides).Contains roll.draws.sum := by
  have shown := obeys.fair fair
  have least : roll.count ≤ roll.draws.sum := by
    have all := List.card_nsmul_le_sum roll.draws 1 fun draw member => (shown draw member).1
    rwa [nsmul_one, obeys.length] at all
  have greatest : roll.draws.sum ≤ roll.count * roll.sides := by
    have all := List.sum_le_card_nsmul roll.draws roll.sides fun draw member =>
      (shown draw member).2
    rwa [nsmul_eq_mul, obeys.length] at all
  have one_le_count := obeys.one_le_count
  have one_le_sides := obeys.one_le_sides
  constructor
  · exact (max_le one_le_count counted.1).trans least
  · -- both numbers are positive, so their product grows with each of them
    calc roll.draws.sum
        ≤ roll.count * roll.sides := greatest
      _ ≤ count.high * sides.high :=
        mul_le_mul counted.2 sided.2 (by omega) (by have := counted.2; omega)

/-! ## All nodes -/

/-- **Every value lies within the bounds of its node**, if the dice are fair. -/
theorem Table.within_watch (table : Table σ) {source : Source σ} (fair : source.FairDice)
    (rules : Rules) (tree : Expr) :
    ∀ node ∈ (table.watch source rules tree).finished, node.tree.bounds.Contains node.value := by
  have sound := table.sound_watch source rules tree
  have closed := (table.watch_progresses source rules tree).closed
  intro node
  -- the operands of a finished node are finished too, so the bounds hold of their values
  induction node with
  | literal written draws value =>
      intro member
      rw [(sound _ member).exact]
      exact ⟨le_rfl, le_rfl⟩
  | unary sign operand draws value ih =>
      intro member
      have below := ih (closed _ member operand (List.mem_singleton_self _))
      rw [(sound _ member).exact]
      cases sign with
      | identity => exact below
      | negate => exact ⟨neg_le_neg below.2, neg_le_neg below.1⟩
  | binary operation left right draws value ihLeft ihRight =>
      intro member
      have first := ihLeft (closed _ member left (by simp [Finished.operands]))
      have second := ihRight (closed _ member right (by simp [Finished.operands]))
      rw [(sound _ member).exact]
      cases operation with
      | add => exact ⟨add_le_add first.1 second.1, add_le_add first.2 second.2⟩
      | subtract => exact ⟨sub_le_sub first.1 second.2, sub_le_sub first.2 second.1⟩
      | roll isImplicit =>
          have obeys := (sound _ member).obeys _ rfl
          exact obeys.within_bounds fair first second

/-! ## The main statement -/

/-- **A total stays within the bounds of its expression.** Whatever the rules are and whatever is on
the table, an evaluation with fair dice that succeeds ends in a total between the least and the
greatest one that the expression tells. The same holds of every node that is finished on the way,
with the bounds of its own expression, also if the evaluation fails later. -/
theorem total_stays_within_bounds (source : Source σ) (fair : source.FairDice) (rules : Rules)
    (tree : Expr) (table : Table σ) :
    (∀ total, (table.evaluate source rules tree).1 = .ok total →
      tree.bounds.low ≤ total ∧ total ≤ tree.bounds.high) ∧
    ∀ node ∈ (table.watch source rules tree).finished,
      node.tree.bounds.low ≤ node.value ∧ node.value ≤ node.tree.bounds.high := by
  have within := table.within_watch fair rules tree
  refine ⟨fun total ended => ?_, within⟩
  obtain ⟨_, root, member, rfl, rfl⟩ := table.finishes_of_ok ended
  exact within root member

/-- The number of dice of a roll is rolled itself: two dice of four sides show how many dice of six
sides are thrown. The three dice that they show are within the bounds of two and eight. -/
theorem total_stays_within_bounds_of_rolled_count :
    let count := Expr.binary (.roll false) (.literal 2) (.literal 4)
    let tree := Expr.binary .subtract (.binary (.roll false) count (.literal 6)) (.literal 1)
    let table : Table Replay := ⟨⟨[1, 2, 6, 5, 6], 0⟩, #[], #[]⟩
    Replay.source.FairDice ∧ tree.bounds = ⟨1, 47⟩ ∧
      (table.evaluate Replay.source {} tree).1 = .ok 16 ∧ (1 : Int) ≤ 16 ∧ (16 : Int) ≤ 47 := by
  intro count tree table
  have fair : Replay.source.FairDice := Replay.fair_source.fairDice
  have evaluated : (table.evaluate Replay.source {} tree).1 = .ok 16 := by
    rw [Table.evaluate_eq]
    cbv
  obtain ⟨low, high⟩ := (total_stays_within_bounds Replay.source fair {} tree table).1 16 evaluated
  exact ⟨fair, rfl, evaluated, low, high⟩

end DiceNotation
