import DiceNotation.Proofs.Evaluation.Throws
import DiceNotation.Proofs.Evaluation.Watching

/-!
# The nodes that an evaluation finishes

The nodes that a watched evaluation writes down come in post-order (`Expr.postorder`). An evaluation
that succeeds has finished them all, the whole expression last; one that fails has finished those
before the node whose own evaluation failed, and no others (`Table.watch_progresses`).

A finished node is sound (`Finished.Sound`): its value is the exact result for the values of its
operands and its own draws, a computed value is in the range of a word, and a roll has kept the
rules that it was made under. The finished rolls are recorded in the order in which they are
finished, where the rules ask for it, and nothing else is recorded (`Table.rolls_watch`).

Both rest on what one node can do to the table (`Table.Step`), which is read off its course.
-/

set_option autoImplicit false

namespace DiceNotation

variable {σ : Type}

/-! ## Nodes and their rolls -/

/-- The nodes of an expression from left to right, operands before the node that takes them. A node
is shown as the expression whose root it is. -/
def Expr.postorder : Expr → List Expr
  | literal value => [literal value]
  | unary sign operand => operand.postorder ++ [unary sign operand]
  | binary operation left right =>
    left.postorder ++ right.postorder ++ [binary operation left right]

namespace Finished

/-- The exact result for the values of the operands and the draws made for the node. -/
def exact : Finished → Int
  | literal written _ _ => written
  | unary .identity operand _ _ => operand.value
  | unary .negate operand _ _ => -operand.value
  | binary .add left right _ _ => left.value + right.value
  | binary .subtract left right _ _ => left.value - right.value
  | binary (.roll _) _ _ draws _ => draws.sum

/-- The value of a node is not just the number written or the value of its operand. -/
def IsComputed : Finished → Prop
  | literal _ _ _ => False
  | unary .identity _ _ _ => False
  | unary .negate _ _ _ => True
  | binary _ _ _ _ _ => True

/-- The roll that a finished roll node stands for: its count and its sides are the values of its
operands. -/
def roll? : Finished → Option DieRoll
  | binary (.roll _) count sides draws _ => some ⟨count.value, sides.value, draws⟩
  | _ => none

end Finished

/-! ## One node -/

/-- The course of a node whose operands are evaluated. -/
def Course.node (source : Source σ) (rules : Rules) : Layer Int → σ → Course σ
  | .literal value => done value
  | .unary .identity value => done value
  | .unary .negate value => result (-value)
  | .binary .add left right => result (left + right)
  | .binary .subtract left right => result (left - right)
  | .binary (.roll _) count sides => roll source rules count sides

theorem Evaluation.follows_node (source : Source σ) (rules : Rules) :
    ∀ layer : Layer Int, Play.Follows (combine source rules layer) (Course.node source rules layer)
  | .literal value => .pure value
  | .unary .identity value => .pure value
  | .unary .negate value => follows_checked (-value)
  | .binary .add left right => follows_checked (left + right)
  | .binary .subtract left right => follows_checked (left - right)
  | .binary (.roll _) count sides => follows_roll source rules count sides

/-- **What a node does.** The table is left as the course of the node leaves it, and the node is
finished with the draws and the value of its course, unless that stops. -/
theorem Table.finish_eq (table : Table σ) (source : Source σ) (rules : Rules)
    (layer : Layer Finished) :
    let course := Course.node source rules (layer.map Finished.value) table.source
    table.finish source rules layer =
      match course.outcome with
      | .error halt => ⟨.error halt.reported, table.after course, []⟩
      | .ok value =>
        let node := Finished.ofLayer (course.draws.map Draw.value) value layer
        ⟨.ok node, table.after course, [node]⟩ := by
  intro course
  have follows : (Evaluation.combine source rules (layer.map Finished.value)).on table =
      (course.outcome.mapError Halt.reported, table.after course) :=
    Evaluation.follows_node source rules (layer.map Finished.value) table
  unfold finish
  rw [follows]
  cases course.outcome with
  | error halt => rfl
  | ok value => simp [Except.mapError, Table.after]

/-- The rolls that are recorded of finished nodes. -/
def Rules.recorded (rules : Rules) (finished : List Finished) : List DieRoll :=
  if rules.record then finished.filterMap Finished.roll? else []

theorem Rules.recorded_append (rules : Rules) (first second : List Finished) :
    rules.recorded (first ++ second) = rules.recorded first ++ rules.recorded second := by
  unfold recorded
  split
  · exact List.filterMap_append
  · rfl

theorem Rules.mem_recorded_iff {rules : Rules} {finished : List Finished} {roll : DieRoll} :
    roll ∈ rules.recorded finished ↔
      rules.record = true ∧ ∃ node ∈ finished, node.roll? = some roll := by
  unfold recorded
  cases rules.record <;> simp

/-- A finished roll has kept the rules. -/
structure DieRoll.Obeys (source : Source σ) (rules : Rules) (roll : DieRoll) : Prop where
  length : (roll.draws.length : Int) = roll.count
  one_le_count : 1 ≤ roll.count
  count_le : ∀ limit ∈ rules.maxDice, roll.count ≤ limit
  one_le_sides : 1 ≤ roll.sides
  fair : source.FairDice → ∀ draw ∈ roll.draws, 1 ≤ draw ∧ draw ≤ roll.sides

/-- A finished node is what the evaluation should have made of its operands. -/
structure Finished.Sound (source : Source σ) (rules : Rules) (node : Finished) : Prop where
  exact : node.value = node.exact
  held : node.IsComputed → Word.Holds node.value
  obeys : ∀ roll ∈ node.roll?, roll.Obeys source rules

/-- A recorded roll stands for a finished node: its numbers are the values of the operands, its
total is the value, and it has kept the rules. -/
structure DieRoll.StandsFor (source : Source σ) (rules : Rules) (roll : DieRoll) (node : Finished) :
    Prop where
  operands : ∃ count sides, node.operands = [count, sides] ∧
    roll.count = count.value ∧ roll.sides = sides.value
  total : roll.total = node.value
  obeys : roll.Obeys source rules

/-- The roll of a sound node stands for it. -/
theorem Finished.Sound.standsFor {source : Source σ} {rules : Rules} {node : Finished}
    {roll : DieRoll} (sound : node.Sound source rules) (same : node.roll? = some roll) :
    roll.StandsFor source rules node := by
  have obeys := sound.obeys roll same
  have exact := sound.exact
  unfold roll? at same
  split at same
  · cases same
    exact ⟨⟨_, _, rfl, rfl, rfl⟩, exact.symm, obeys⟩
  · cases same

/-- A finished node together with what has been recorded for it. -/
structure Finished.Recorded (source : Source σ) (rules : Rules) (node : Finished)
    (rolls : List DieRoll) : Prop where
  sound : node.Sound source rules
  rolls : rolls = rules.recorded [node]

/-- A node that is no roll leaves nothing recorded. -/
theorem Finished.recorded_nil {source : Source σ} {rules : Rules} {node : Finished}
    (exact : node.value = node.exact) (held : node.IsComputed → Word.Holds node.value)
    (other : node.roll? = none) : node.Recorded source rules [] := by
  refine ⟨⟨exact, held, ?_⟩, ?_⟩
  · rw [other]
    exact fun _ impossible => (nomatch impossible)
  · simp [Rules.recorded, other]

namespace Course

variable {source : Source σ} {rules : Rules} {state : σ} {value : Int}

theorem rolls_result {number : Int} : (result number state).rolls = [] := by
  unfold result
  split <;> rfl

/-- A result that must be in range is, and it leaves nothing recorded. -/
theorem recorded_of_result {node : Finished}
    (ended : (result node.exact state).outcome = .ok value) (same : node.value = value)
    (other : node.roll? = none) :
    node.Recorded source rules (result node.exact state).rolls := by
  unfold result at ended ⊢
  split at ended
  · rename_i inside
    cases ended
    rw [if_pos inside]
    exact Finished.recorded_nil same (fun _ => same ▸ inside) other
  · cases ended

theorem recorded_of_roll {count sides : Finished} {isImplicit : Bool}
    (ended : (roll source rules count.value sides.value state).outcome = .ok value) :
    let course := roll source rules count.value sides.value state
    (Finished.binary (.roll isImplicit) count sides (course.draws.map Draw.value) value).Recorded
      source rules course.rolls := by
  obtain ⟨sound, thrown, recorded⟩ := roll_completes ended
  obtain ⟨one_le_count, count_le, one_le_sides⟩ := Evaluation.rollFault?_eq_none_iff.mp sound
  have grown := thrown.grown
  rw [Int.zero_add] at grown
  have present : 0 < count.value.toNat := by omega
  refine ⟨⟨grown, fun _ => thrown.held present, ?_⟩, recorded⟩
  rintro _ ⟨⟩
  refine ⟨?_, one_le_count, count_le, one_le_sides, fun fair => ?_⟩
  · rw [List.length_map, thrown.length]
    exact Int.toNat_of_nonneg (by omega)
  · rintro _ member
    obtain ⟨draw, drawn, rfl⟩ := List.mem_map.mp member
    have shown := fair_roll fair draw drawn
    rwa [thrown.sides draw drawn] at shown

/-- **A node that is finished is sound**, and it is recorded if it is a roll and rolls are
recorded. -/
theorem recorded_of_node : ∀ {layer : Layer Finished},
    (node source rules (layer.map Finished.value) state).outcome = .ok value →
      let course := node source rules (layer.map Finished.value) state
      (Finished.ofLayer (course.draws.map Draw.value) value layer).Recorded source rules
        course.rolls
  | .literal _, ended => by
      cases ended
      exact Finished.recorded_nil rfl (fun impossible => (nomatch impossible)) rfl
  | .unary .identity _, ended => by
      cases ended
      exact Finished.recorded_nil rfl (fun impossible => (nomatch impossible)) rfl
  | .unary .negate _, ended => recorded_of_result ended rfl rfl
  | .binary .add _ _, ended => recorded_of_result ended rfl rfl
  | .binary .subtract _ _, ended => recorded_of_result ended rfl rfl
  | .binary (.roll _) _ _, ended => recorded_of_roll ended

/-- A node that is not finished leaves nothing recorded. -/
theorem rolls_of_node_error {halt : Halt} : ∀ {layer : Layer Int},
    (node source rules layer state).outcome = .error halt →
      (node source rules layer state).rolls = []
  | .literal _, _ => rfl
  | .unary .identity _, _ => rfl
  | .unary .negate _, _ => rolls_result
  | .binary .add _ _, _ => rolls_result
  | .binary .subtract _ _, _ => rolls_result
  | .binary (.roll _) _ _, stops => rolls_of_roll_error stops

end Course

/-- **What a node can do.** It fails and nothing is recorded, or it is finished, it is sound, and
it is recorded if it is a roll and rolls are recorded. -/
inductive Table.Step (source : Source σ) (rules : Rules) (layer : Layer Finished)
    (table : Table σ) : Watched σ → Prop
  | fails (fault : Fault) {after : Table σ} :
      after.rolls = table.rolls → Step source rules layer table ⟨.error fault, after, []⟩
  | finishes (draws : List Int) (value : Int) {after : Table σ} :
      (Finished.ofLayer draws value layer).Sound source rules →
      after.rolls.toList =
        table.rolls.toList ++ rules.recorded [.ofLayer draws value layer] →
      Step source rules layer table
        ⟨.ok (.ofLayer draws value layer), after, [.ofLayer draws value layer]⟩

theorem Table.step_finish (table : Table σ) (source : Source σ) (rules : Rules)
    (layer : Layer Finished) :
    table.Step source rules layer (table.finish source rules layer) := by
  rw [finish_eq]
  split
  · rename_i halt stops
    refine .fails halt.reported ?_
    simp [after, Course.rolls_of_node_error stops]
  · rename_i value ended
    obtain ⟨sound, recorded⟩ := Course.recorded_of_node ended
    refine .finishes _ value sound ?_
    simp [after, recorded]

/-! ## How far an evaluation comes -/

theorem Finished.operands_ofLayer (draws : List Int) (value : Int) (layer : Layer Finished) :
    (ofLayer draws value layer).operands = layer.operands := by
  cases layer <;> rfl

theorem Finished.tree_ofLayer {tree : Expr} {layer : Layer Finished}
    (root : tree.layer = layer.map Finished.tree) (draws : List Int) (value : Int) :
    (ofLayer draws value layer).tree = tree := by
  cases tree <;> cases layer <;> cases root <;> rfl

/-- The operands of every node are among the nodes. -/
def Finished.Closed (finished : List Finished) : Prop :=
  ∀ node ∈ finished, ∀ operand ∈ node.operands, operand ∈ finished

theorem Finished.closed_nil : Closed [] :=
  List.forall_mem_nil _

theorem Finished.Closed.append {first second : List Finished} (before : Closed first)
    (after : Closed second) : Closed (first ++ second) := by
  intro node member operand below
  rcases List.mem_append.mp member with left | right
  · exact List.mem_append_left _ (before node left operand below)
  · exact List.mem_append_right _ (after node right operand below)

namespace Watched

/-- A watched evaluation fails at a node: the operands of the node are finished, its own evaluation
fails, and no roll is recorded for it. -/
def FailsAt (source : Source σ) (rules : Rules) (watched : Watched σ) (fault : Fault)
    (node : Expr) : Prop :=
  ∃ (layer : Layer Finished) (before : Table σ),
    node.layer = layer.map Finished.tree ∧
    (∀ operand ∈ layer.operands, operand ∈ watched.finished) ∧
    before.finish source rules layer = ⟨.error fault, watched.table, []⟩ ∧
    watched.table.rolls = before.rolls

/-- How far a watched evaluation of an expression has come. -/
structure Progress (source : Source σ) (rules : Rules) (tree : Expr) (watched : Watched σ) :
    Prop where
  closed : Finished.Closed watched.finished
  /-- With the value of the expression all of its nodes are finished, the expression itself last. -/
  complete : ∀ node, watched.outcome = .ok node →
    node.tree = tree ∧ watched.finished.map Finished.tree = tree.postorder ∧
      watched.finished.getLast? = some node
  /-- With a fault the nodes before some node are finished, and this node fails. -/
  interrupted : ∀ fault, watched.outcome = .error fault →
    ∃ node behind, tree.postorder = watched.finished.map Finished.tree ++ node :: behind ∧
      watched.FailsAt source rules fault node

variable {source : Source σ} {rules : Rules} {before : List Finished}

/-- **The root of an expression is evaluated behind its operands.** -/
theorem Progress.root {tree : Expr} {layer : Layer Finished} (closed : Finished.Closed before)
    (operands : ∀ operand ∈ layer.operands, operand ∈ before)
    (shape : tree.layer = layer.map Finished.tree)
    (order : tree.postorder = before.map Finished.tree ++ [tree]) (table : Table σ) :
    Progress source rules tree ((table.finish source rules layer).behind before) := by
  have step := table.step_finish source rules layer
  generalize evaluated : table.finish source rules layer = watched at step
  cases step with
  | fails fault unrecorded =>
      refine ⟨?_, ?_, ?_⟩
      · simpa [behind] using closed
      · intro node impossible
        cases impossible
      · rintro _ ⟨⟩
        refine ⟨tree, [], by simpa [behind] using order, layer, table, shape, ?_, ?_, unrecorded⟩
        · simpa [behind] using operands
        · exact evaluated
  | finishes draws value sound recorded =>
      refine ⟨?_, ?_, ?_⟩
      · intro node member operand below
        rw [behind, List.mem_append, List.mem_singleton] at member
        refine List.mem_append_left _ ?_
        rcases member with earlier | rfl
        · exact closed node earlier operand below
        · rw [Finished.operands_ofLayer] at below
          exact operands operand below
      · rintro _ ⟨⟩
        have same := Finished.tree_ofLayer shape draws value
        exact ⟨same, by simp [behind, same, order], by simp [behind]⟩
      · intro fault impossible
        cases impossible

/-- An expression fails where one of its operands fails. -/
theorem Progress.of_operand {operand tree : Expr} {watched : Watched σ} {fault : Fault}
    (progress : Progress source rules operand watched) (fails : watched.outcome = .error fault)
    (closed : Finished.Closed before) (later : List Expr)
    (order : tree.postorder = before.map Finished.tree ++ operand.postorder ++ later) :
    Progress source rules tree (watched.behind before) := by
  refine ⟨closed.append progress.closed, ?_, ?_⟩
  · intro node ended
    have ended : watched.outcome = .ok node := ended
    rw [fails] at ended
    cases ended
  · intro other stops
    obtain ⟨node, rest, split, layer, table, shape, operands, evaluated, unrecorded⟩ :=
      progress.interrupted other stops
    refine ⟨node, rest ++ later, ?_, layer, table, shape, ?_, evaluated, unrecorded⟩
    · rw [order, split]
      simp [behind]
    · exact fun operand below => List.mem_append_right _ (operands operand below)

end Watched

/-- **An evaluation finishes the nodes of its expression in post-order**, all of them or those
before the one that fails. -/
theorem Table.watch_progresses (table : Table σ) (source : Source σ) (rules : Rules) (tree : Expr) :
    (table.watch source rules tree).Progress source rules tree := by
  induction tree generalizing table with
  | literal value =>
      rw [watch_literal, ← Watched.behind_nil (table.finish _ _ _)]
      refine .root Finished.closed_nil ?_ rfl rfl table
      exact List.forall_mem_nil _
  | unary sign operand ih =>
      rw [watch_unary]
      have progress := ih table
      cases ended : (table.watch source rules operand).outcome with
      | error fault =>
          rw [Watched.andThen_of_error ended, ← Watched.behind_nil (table.watch _ _ _)]
          exact progress.of_operand ended Finished.closed_nil [.unary sign operand] rfl
      | ok node =>
          obtain ⟨same, order, last⟩ := progress.complete node ended
          rw [Watched.andThen_of_ok ended]
          refine .root progress.closed ?_ ?_ ?_ _
          · exact List.forall_mem_singleton.mpr (List.mem_of_getLast? last)
          · rw [← same]
            rfl
          · rw [order]
            rfl
  | binary operation left right ihLeft ihRight =>
      rw [watch_binary]
      have progressLeft := ihLeft table
      cases endedLeft : (table.watch source rules left).outcome with
      | error fault =>
          rw [Watched.andThen_of_error endedLeft, ← Watched.behind_nil (table.watch _ _ _)]
          refine progressLeft.of_operand endedLeft Finished.closed_nil
            (right.postorder ++ [.binary operation left right]) ?_
          simp [Expr.postorder]
      | ok first =>
          obtain ⟨sameFirst, orderFirst, lastFirst⟩ := progressLeft.complete first endedLeft
          rw [Watched.andThen_of_ok endedLeft]
          generalize table.watch source rules left = watchedLeft at *
          have progressRight := ihRight watchedLeft.table
          cases endedRight : (watchedLeft.table.watch source rules right).outcome with
          | error fault =>
              rw [Watched.andThen_of_error endedRight]
              refine progressRight.of_operand endedRight progressLeft.closed
                [.binary operation left right] ?_
              rw [orderFirst]
              rfl
          | ok second =>
              obtain ⟨sameSecond, orderSecond, lastSecond⟩ :=
                progressRight.complete second endedRight
              rw [Watched.andThen_of_ok endedRight, Watched.behind_behind]
              refine .root (progressLeft.closed.append progressRight.closed) ?_ ?_ ?_ _
              · refine List.forall_mem_cons.mpr ⟨?_, List.forall_mem_singleton.mpr ?_⟩
                · exact List.mem_append_left _ (List.mem_of_getLast? lastFirst)
                · exact List.mem_append_right _ (List.mem_of_getLast? lastSecond)
              · rw [← sameFirst, ← sameSecond]
                rfl
              · rw [List.map_append, orderFirst, orderSecond]
                rfl

/-- An evaluation that succeeds has finished every node, and its total is the value of the whole
expression. -/
theorem Table.finishes_of_ok (table : Table σ) {source : Source σ} {rules : Rules} {tree : Expr}
    {total : Int} (ended : (table.evaluate source rules tree).1 = .ok total) :
    (table.watch source rules tree).finished.map Finished.tree = tree.postorder ∧
      ∃ root ∈ (table.watch source rules tree).finished,
        root.tree = tree ∧ root.value = total := by
  rw [← table.unwatched_watch] at ended
  cases outcome : (table.watch source rules tree).outcome with
  | error fault =>
      rw [Watched.unwatched, outcome] at ended
      cases ended
  | ok root =>
      rw [Watched.unwatched, outcome] at ended
      cases ended
      obtain ⟨same, all, last⟩ :=
        (table.watch_progresses source rules tree).complete root outcome
      exact ⟨all, root, List.mem_of_getLast? last, same, rfl⟩

/-! ## What is recorded -/

namespace Table

variable {source : Source σ} {rules : Rules} {layer : Layer Finished} {table : Table σ}
  {watched : Watched σ}

theorem Step.sound (step : table.Step source rules layer watched) :
    ∀ node ∈ watched.finished, node.Sound source rules := by
  cases step with
  | fails fault unrecorded => exact List.forall_mem_nil _
  | finishes draws value sound recorded => exact List.forall_mem_singleton.mpr sound

theorem Step.rolls (step : table.Step source rules layer watched) :
    watched.table.rolls.toList = table.rolls.toList ++ rules.recorded watched.finished := by
  cases step with
  | fails fault unrecorded => simp [unrecorded, Rules.recorded]
  | finishes draws value sound recorded => exact recorded

/-- **Every finished node is sound.** -/
theorem sound_watch (table : Table σ) (source : Source σ) (rules : Rules) (tree : Expr) :
    ∀ node ∈ (table.watch source rules tree).finished, node.Sound source rules :=
  watch_invariant (fun _ _ finished => ∀ node ∈ finished, node.Sound source rules)
    (fun before behind => List.forall_mem_append.mpr ⟨before, behind⟩)
    (fun layer table => (table.step_finish source rules layer).sound) tree table

/-- **The finished rolls are recorded in order**, where the rules ask for it, and nothing else is.
-/
theorem rolls_watch (table : Table σ) (source : Source σ) (rules : Rules) (tree : Expr) :
    let watched := table.watch source rules tree
    watched.table.rolls.toList = table.rolls.toList ++ rules.recorded watched.finished := by
  refine watch_invariant (fun before after finished =>
    after.rolls.toList = before.rolls.toList ++ rules.recorded finished) ?_ ?_ tree table
  · intro first second third before behind recorded recorded'
    rw [recorded', recorded, Rules.recorded_append, List.append_assoc]
  · exact fun layer table => (table.step_finish source rules layer).rolls

end Table

end DiceNotation
