import DiceNotation.Proofs.Evaluation.FinishedNodes
import DiceNotation.Proofs.Reading.Literals
import DiceNotation.Roll

/-!
# The range of every value

The evaluator checks what it computes, but it takes literals and the operand of a plus as they are.
Every value it hands on is nevertheless in the range of a word, if the literals of the expression
are (`Table.holds_watch`): a literal is what is written, a plus hands on a value that is in range
already, and everything else is checked. The draws play no part in this. A source may answer as it
likes; a partial sum that leaves the range ends the evaluation.

The literals of an expression that is read from a text are in range, so the statement applies to
every text. `values_stay_in_range` says it for the nodes of an expression, for the total and for the
recorded rolls, and says that each value is the exact result for the values below it.
-/

set_option autoImplicit false

namespace DiceNotation

variable {σ : Type}

/-- The literals of the nodes of an expression are literals of the expression. -/
theorem Expr.LiteralsHold.of_mem_postorder {tree : Expr} (holds : tree.LiteralsHold) :
    ∀ node ∈ tree.postorder, node.LiteralsHold := by
  induction tree with
  | literal value => exact List.forall_mem_singleton.mpr holds
  | unary sign operand ih =>
      exact List.forall_mem_append.mpr ⟨ih holds, List.forall_mem_singleton.mpr holds⟩
  | binary operation left right ihLeft ihRight =>
      refine List.forall_mem_append.mpr ⟨?_, List.forall_mem_singleton.mpr holds⟩
      exact List.forall_mem_append.mpr ⟨ihLeft holds.1, ihRight holds.2⟩

/-- The finished nodes are the first nodes of the expression, in post-order. -/
theorem Watched.Progress.nodes_prefix {source : Source σ} {rules : Rules} {tree : Expr}
    {watched : Watched σ} (progress : Progress source rules tree watched) :
    watched.finished.map Finished.tree <+: tree.postorder := by
  cases ended : watched.outcome with
  | ok root =>
      obtain ⟨_, order, _⟩ := progress.complete root ended
      rw [order]
  | error fault =>
      obtain ⟨node, behind, order, _⟩ := progress.interrupted fault ended
      exact ⟨node :: behind, order.symm⟩

/-- **Every value is in the range of a word**, if the literals of the expression are. -/
theorem Table.holds_watch (table : Table σ) (source : Source σ) (rules : Rules) {tree : Expr}
    (literals : tree.LiteralsHold) :
    ∀ node ∈ (table.watch source rules tree).finished, Word.Holds node.value := by
  have progress := table.watch_progresses source rules tree
  have sound := table.sound_watch source rules tree
  intro node
  -- a plus hands on the value of its operand, which is finished too
  induction node with
  | literal written draws value =>
      intro member
      have shown := literals.of_mem_postorder _
        (progress.nodes_prefix.subset (List.mem_map_of_mem member))
      rw [(sound _ member).exact]
      exact shown
  | unary sign operand draws value ih =>
      intro member
      cases sign with
      | identity =>
          rw [(sound _ member).exact]
          exact ih (progress.closed _ member operand (List.mem_singleton_self _))
      | negate => exact (sound _ member).held trivial
  | binary operation left right draws value _ _ => exact fun member => (sound _ member).held trivial

/-- The numbers of a roll are in range. -/
structure DieRoll.InRange (roll : DieRoll) : Prop where
  count : 1 ≤ roll.count ∧ roll.count ≤ Word.greatest
  sides : 1 ≤ roll.sides ∧ roll.sides ≤ Word.greatest
  total : Word.Holds roll.total

/-- **The numbers of a finished roll are in range**: its count and its sides are values. -/
theorem Table.inRange_of_roll (table : Table σ) (source : Source σ) (rules : Rules) {tree : Expr}
    (literals : tree.LiteralsHold) {node : Finished} {roll : DieRoll}
    (member : node ∈ (table.watch source rules tree).finished) (same : node.roll? = some roll) :
    roll.InRange ∧ node.value = roll.total := by
  have holds := table.holds_watch source rules literals
  have closed := (table.watch_progresses source rules tree).closed node member
  obtain ⟨⟨count, sides, operands, counted, sided⟩, total, obeys⟩ :=
    (table.sound_watch source rules tree node member).standsFor same
  rw [operands] at closed
  refine ⟨⟨⟨obeys.one_le_count, ?_⟩, ⟨obeys.one_le_sides, ?_⟩, ?_⟩, total.symm⟩
  · rw [counted]
    exact (holds count (closed count (by simp))).2
  · rw [sided]
    exact (holds sides (closed sides (by simp))).2
  · rw [total]
    exact holds node member

/-- An evaluation stays in the range of a word. The nodes that get a value are the first nodes of
the expression in post-order; each gets the exact result for the values of its operands, and none is
out of range. Neither is the total, which is the value of the expression itself, nor a number of a
recorded roll, whose total is the value of its node. -/
structure Table.StaysInRange (table : Table σ) (source : Source σ) (rules : Rules) (tree : Expr) :
    Prop where
  unwatched : (table.watch source rules tree).unwatched = table.evaluate source rules tree
  nodes : (table.watch source rules tree).finished.map Finished.tree <+: tree.postorder
  values : ∀ node ∈ (table.watch source rules tree).finished,
    Word.Holds node.value ∧ node.value = node.exact ∧
      ∀ operand ∈ node.operands, operand ∈ (table.watch source rules tree).finished
  total : ∀ total, (table.evaluate source rules tree).1 = .ok total →
    Word.Holds total ∧
      (table.watch source rules tree).finished.map Finished.tree = tree.postorder ∧
        ∃ root ∈ (table.watch source rules tree).finished, root.tree = tree ∧ root.value = total
  rolls : ∃ added,
    (table.evaluate source rules tree).2.rolls.toList = table.rolls.toList ++ added ∧
      ∀ roll ∈ added, roll.InRange ∧ ∃ node ∈ (table.watch source rules tree).finished,
        node.roll? = some roll ∧ node.value = roll.total

/-- **An evaluation stays in range** if the literals of its expression do. -/
theorem Table.staysInRange (table : Table σ) (source : Source σ) (rules : Rules) {tree : Expr}
    (literals : tree.LiteralsHold) : table.StaysInRange source rules tree := by
  have unwatched := table.unwatched_watch source rules tree
  have progress := table.watch_progresses source rules tree
  have holds := table.holds_watch source rules literals
  refine ⟨unwatched, progress.nodes_prefix, fun node member => ?_, fun total ended => ?_, ?_⟩
  · exact ⟨holds node member, (table.sound_watch source rules tree node member).exact,
      progress.closed node member⟩
  · obtain ⟨all, root, member, same, rfl⟩ := table.finishes_of_ok ended
    exact ⟨holds root member, all, root, member, same, rfl⟩
  · refine ⟨rules.recorded (table.watch source rules tree).finished, ?_, fun roll recorded => ?_⟩
    · rw [← unwatched]
      exact table.rolls_watch source rules tree
    · obtain ⟨_, node, member, same⟩ := Rules.mem_recorded_iff.mp recorded
      obtain ⟨inRange, value⟩ := table.inRange_of_roll source rules literals member same
      exact ⟨inRange, node, member, same, value⟩

/-- **Every value stays in the range of a word.** The literals of an expression that is read from a
text are in range, and whatever expression has its literals in range stays there when it is
evaluated, from any table, under any rules and with any source, be it one that does not keep to the
bounds of a request. So do the totals and the recorded rolls of a text. -/
theorem values_stay_in_range (source : Source σ) :
    (∀ (text : String) (limit : DepthLimit) (tree : Expr),
      Expr.parse text limit = .ok tree → tree.LiteralsHold) ∧
    (∀ (rules : Rules) (tree : Expr) (table : Table σ),
      tree.LiteralsHold → table.StaysInRange source rules tree) ∧
    ∀ (state : σ) (limits : Limits) (text : String),
      (∀ total, (roll source state limits text).outcome = .ok total → Word.Holds total) ∧
      ∀ result, (rollDetailed source state limits text).outcome = .ok result →
        Word.Holds result.total ∧ ∀ roll ∈ result.rolls, roll.InRange := by
  refine ⟨fun text limit tree ended => Expr.literalsHold_of_parse ended,
    fun rules tree table literals => table.staysInRange source rules literals,
    fun state limits text => ⟨fun total ended => ?_, fun result ended => ?_⟩⟩
  · obtain ⟨tree, read, evaluated⟩ := roll_eq_ok_iff.mp
      (show roll source state limits text = ⟨.ok total, _⟩ by rw [← ended])
    have stays := (Table.mk state #[] #[]).staysInRange source ⟨false, limits.maxDice⟩
      (Expr.literalsHold_of_parse read)
    exact (stays.total total (by rw [evaluated])).1
  · obtain ⟨read, evaluated, _, kept⟩ := rollDetailed_eq_ok_iff.mp
      (show rollDetailed source state limits text = ⟨.ok result, _⟩ by rw [← ended])
    have stays := (Table.mk state #[] #[]).staysInRange source ⟨true, limits.maxDice⟩
      (Expr.literalsHold_of_parse read)
    refine ⟨(stays.total result.total (by rw [evaluated])).1, fun roll member => ?_⟩
    obtain ⟨added, recorded, inRange⟩ := stays.rolls
    rw [evaluated, ← kept] at recorded
    rw [recorded] at member
    exact (inRange roll member).1

/-- The source that answers every request with one value. -/
def Source.constant (value : Int) : Source Unit where
  request _ _ state := (.ok value, state)

/-- A source that answers every request with a hundred breaks the bounds of dice with six sides. The
total and the roll are exact and in range all the same. -/
theorem values_stay_in_range_of_hundreds :
    let source := Source.constant 100
    let tree := Expr.binary .add (.binary (.roll false) (.literal 2) (.literal 6)) (.literal 3)
    let result : RollResult := ⟨"2d6+3", 203, tree, [⟨2, 6, [100, 100]⟩]⟩
    (roll source () {} "2d6+3").outcome = .ok 203 ∧
      (rollDetailed source () {} "2d6+3").outcome = .ok result ∧
      Word.Holds 203 ∧ DieRoll.InRange ⟨2, 6, [100, 100]⟩ ∧
      (Table.mk () #[] #[]).StaysInRange source ⟨true, none⟩ tree := by
  intro source tree result
  obtain ⟨literals, stays, ends⟩ := values_stay_in_range source
  have read : Expr.parse "2d6+3" = .ok tree := by cbv
  have evaluated : (Table.mk () #[] #[]).evaluate source ⟨false, none⟩ tree =
      (.ok 203, ⟨(), #[], #[⟨6, 100⟩, ⟨6, 100⟩]⟩) := by
    rw [Table.evaluate_eq]
    cbv
  have recorded : (Table.mk () #[] #[]).evaluate source ⟨true, none⟩ tree =
      (.ok 203, ⟨(), #[⟨2, 6, [100, 100]⟩], #[⟨6, 100⟩, ⟨6, 100⟩]⟩) := by
    rw [Table.evaluate_eq]
    cbv
  have rolled : (roll source () {} "2d6+3").outcome = .ok 203 := by
    rw [roll_eq_ok_iff.mpr ⟨tree, read, evaluated⟩]
  have played : rollDetailed source () {} "2d6+3" = ⟨.ok result, _⟩ :=
    rollDetailed_eq_ok_iff.mpr ⟨read, recorded, rfl, rfl⟩
  have detailed : (rollDetailed source () {} "2d6+3").outcome = .ok result := by
    rw [played]
  obtain ⟨total, numbers⟩ := ends () {} "2d6+3"
  exact ⟨rolled, detailed, total 203 rolled,
    (numbers result detailed).2 _ (List.mem_singleton_self _), stays _ _ _ (literals _ _ _ read)⟩

end DiceNotation
