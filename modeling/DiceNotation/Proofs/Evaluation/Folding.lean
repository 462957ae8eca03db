import DiceNotation.Proofs.Evaluation.FinishedNodes

/-!
# What a fold combines

A fold does its tasks with two stacks, and is nevertheless the computation by recursion. It combines
every node of the tree once, in post-order, with the results of the operands of the node and no
others. If a node fails, it is the last one that is combined.

To say this of every `combine`, with a state and with failures, the calls are written down
(`Expr.recording`). What is written down has a shape that follows the tree (`Expr.Combines`): the
calls for the operands come before the call for their node, and this has their outcomes as its
results. The order of the nodes and the place of a failure are read off the shape
(`Expr.Combines.inOrder`). Every call is made on stacks that the fold comes to (`Expr.Reached`,
`Expr.Stacks.takesReached_run`), and there the results that it takes are there.

The main statement is `fold_is_recursion`.
-/

set_option autoImplicit false

universe u v

namespace DiceNotation

namespace Expr

/-! ## Calls -/

/-- A call of `combine`: the node with the results that it takes, and what comes of it. -/
structure Combination (ε α : Type u) : Type u where
  visit : Visit α
  outcome : Except ε α

variable {ε σ α : Type u}

/-- Combines a node, and writes the call down behind the earlier ones. -/
def recording (combine : Visit α → ExceptT ε (StateM σ) α) (visit : Visit α) :
    ExceptT ε (StateM (σ × List (Combination ε α))) α :=
  fun (state, earlier) =>
    let (outcome, left) := (ExceptT.run (combine visit)).run state
    (outcome, left, earlier ++ [⟨visit, outcome⟩])

/-- The calls for a tree and their outcome: those for the operands from left to right, up to one
that fails, and then the call for the node with the results of the operands. -/
inductive Combines : Expr → List (Combination ε α) → Except ε α → Prop
  | literal (value : Int) (outcome : Except ε α) :
      Combines (literal value) [⟨⟨literal value, [], rfl⟩, outcome⟩] outcome
  | unary (sign : Sign) {operand : Expr} {calls : List (Combination ε α)} {result : α}
      (outcome : Except ε α) :
      Combines operand calls (.ok result) →
        Combines (unary sign operand)
          (calls ++ [⟨⟨unary sign operand, [result], rfl⟩, outcome⟩]) outcome
  | operandFails (sign : Sign) {operand : Expr} {calls : List (Combination ε α)} {fault : ε} :
      Combines operand calls (.error fault) → Combines (unary sign operand) calls (.error fault)
  | binary (operation : Operation) {left right : Expr} {calls later : List (Combination ε α)}
      {first second : α} (outcome : Except ε α) :
      Combines left calls (.ok first) → Combines right later (.ok second) →
        Combines (binary operation left right)
          (calls ++ later ++ [⟨⟨binary operation left right, [first, second], rfl⟩, outcome⟩])
          outcome
  | leftFails (operation : Operation) {left : Expr} (right : Expr)
      {calls : List (Combination ε α)} {fault : ε} :
      Combines left calls (.error fault) →
        Combines (binary operation left right) calls (.error fault)
  | rightFails (operation : Operation) {left right : Expr} {calls later : List (Combination ε α)}
      {first : α} {fault : ε} :
      Combines left calls (.ok first) → Combines right later (.error fault) →
        Combines (binary operation left right) (calls ++ later) (.error fault)

/-- **Recursion makes the calls of the tree.** Writing them down changes neither the outcome nor the
state that is left. -/
theorem exists_combines (combine : Visit α → ExceptT ε (StateM σ) α) (tree : Expr) :
    ∀ (state : σ) (earlier : List (Combination ε α)), ∃ outcome left calls,
      (ExceptT.run (tree.recurseNodes combine)).run state = (outcome, left) ∧
        (ExceptT.run (tree.recurseNodes (recording combine))).run (state, earlier) =
          (outcome, left, earlier ++ calls) ∧
        Combines tree calls outcome := by
  induction tree with
  | literal value =>
      intro state earlier
      exact ⟨_, _, _, rfl, rfl, .literal value _⟩
  | unary sign operand ih =>
      intro state earlier
      obtain ⟨outcome, left, calls, plain, recorded, combines⟩ := ih state earlier
      rw [recurseNodes, recurseNodes, run_bind_eq_match, run_bind_eq_match, plain, recorded]
      cases outcome with
      | error fault => exact ⟨_, _, _, rfl, rfl, .operandFails sign combines⟩
      | ok result =>
          refine ⟨_, _, _, rfl, ?_, .unary sign _ combines⟩
          rw [← List.append_assoc]
          rfl
  | binary operation left right ihLeft ihRight =>
      intro state earlier
      obtain ⟨outcome, middle, calls, plain, recorded, combines⟩ := ihLeft state earlier
      rw [recurseNodes, recurseNodes, run_bind_eq_match, run_bind_eq_match, plain, recorded]
      cases outcome with
      | error fault => exact ⟨_, _, _, rfl, rfl, .leftFails operation right combines⟩
      | ok first =>
          obtain ⟨outcome, last, later, plain, recorded, combines'⟩ :=
            ihRight middle (earlier ++ calls)
          simp only [run_bind_eq_match, plain, recorded]
          cases outcome with
          | error fault =>
              refine ⟨_, _, _, rfl, ?_, .rightFails operation combines combines'⟩
              rw [List.append_assoc]
          | ok second =>
              refine ⟨_, _, _, rfl, ?_, .binary operation _ combines combines'⟩
              rw [← List.append_assoc, ← List.append_assoc]
              rfl

/-! ## The order of the calls -/

/-- The nodes that are combined, in order. -/
def combinedNodes (calls : List (Combination ε α)) : List Expr :=
  calls.map fun call => call.visit.node

/-- Every call has a result. -/
def Succeed (calls : List (Combination ε α)) : Prop :=
  ∀ call ∈ calls, ∃ result, call.outcome = .ok result

theorem combinedNodes_append (calls later : List (Combination ε α)) :
    combinedNodes (calls ++ later) = combinedNodes calls ++ combinedNodes later :=
  List.map_append

theorem Succeed.append {calls later : List (Combination ε α)} (first : Succeed calls)
    (second : Succeed later) : Succeed (calls ++ later) :=
  List.forall_mem_append.mpr ⟨first, second⟩

/-- Calls that go through the nodes of a tree in post-order. All but the last one have results, the
outcome of the last one is the outcome of them all, and if it is a result no node is left. -/
structure InOrder (tree : Expr) (calls : List (Combination ε α)) (outcome : Except ε α) : Prop where
  last : ∃ before call, calls = before ++ [call] ∧ Succeed before ∧ call.outcome = outcome
  nodes : ∃ behind, tree.postorder = combinedNodes calls ++ behind ∧
    ∀ result, outcome = .ok result → behind = []

section

variable {tree operand : Expr} {calls later : List (Combination ε α)} {outcome : Except ε α}
  {result : α} {fault : ε}

theorem InOrder.succeed (inOrder : InOrder tree calls (.ok result)) : Succeed calls := by
  obtain ⟨before, call, rfl, succeed, ended⟩ := inOrder.last
  exact succeed.append (List.forall_mem_singleton.mpr ⟨result, ended⟩)

theorem InOrder.postorder_eq (inOrder : InOrder tree calls (.ok result)) :
    tree.postorder = combinedNodes calls := by
  obtain ⟨behind, order, complete⟩ := inOrder.nodes
  rw [order, complete result rfl, List.append_nil]

/-- A node comes behind its operands. -/
theorem InOrder.root (succeed : Succeed calls) (visit : Visit α)
    (order : visit.node.postorder = combinedNodes calls ++ [visit.node]) :
    InOrder visit.node (calls ++ [⟨visit, outcome⟩]) outcome where
  last := ⟨calls, _, rfl, succeed, rfl⟩
  nodes := by
    refine ⟨[], ?_, fun _ _ => rfl⟩
    rw [List.append_nil, order, combinedNodes_append]
    rfl

/-- An operand that fails is the last one, and its node is not combined. -/
theorem InOrder.of_operand {rest : List Expr} (succeed : Succeed calls)
    (fails : InOrder operand later (.error fault))
    (order : tree.postorder = combinedNodes calls ++ (operand.postorder ++ rest)) :
    InOrder tree (calls ++ later) (.error fault) where
  last := by
    obtain ⟨before, call, rfl, succeed', failed⟩ := fails.last
    exact ⟨calls ++ before, call, (List.append_assoc ..).symm, succeed.append succeed', failed⟩
  nodes := by
    obtain ⟨behind, inner, -⟩ := fails.nodes
    refine ⟨behind ++ rest, ?_, fun _ impossible => (nomatch impossible)⟩
    rw [order, inner, combinedNodes_append, List.append_assoc, List.append_assoc]

end

/-- **The calls for a tree are in order.** -/
theorem Combines.inOrder {tree : Expr} {calls : List (Combination ε α)} {outcome : Except ε α}
    (combines : Combines tree calls outcome) : InOrder tree calls outcome := by
  have none : Succeed ([] : List (Combination ε α)) := List.forall_mem_nil _
  induction combines with
  | literal value outcome => exact .root none ⟨.literal value, [], rfl⟩ rfl
  | unary sign outcome _ ih =>
      refine .root ih.succeed ⟨.unary sign _, [_], rfl⟩ ?_
      rw [postorder, ih.postorder_eq]
  | operandFails sign _ ih => exact .of_operand none ih rfl
  | binary operation outcome _ _ ihLeft ihRight =>
      refine .root (ihLeft.succeed.append ihRight.succeed) ⟨.binary operation _ _, [_, _], rfl⟩ ?_
      rw [postorder, ihLeft.postorder_eq, ihRight.postorder_eq, combinedNodes_append]
  | @leftFails operation left right _ _ _ ih =>
      have order : (Expr.binary operation left right).postorder =
          left.postorder ++ (right.postorder ++ [.binary operation left right]) :=
        List.append_assoc ..
      exact .of_operand none ih order
  | @rightFails operation left right calls _ _ _ _ _ ihLeft ihRight =>
      have order : (Expr.binary operation left right).postorder =
          combinedNodes calls ++ (right.postorder ++ [.binary operation left right]) := by
        rw [postorder, ihLeft.postorder_eq, List.append_assoc]
      exact .of_operand ihLeft.succeed ihRight order

/-! ## The stacks -/

/-- The two stacks that a fold of a tree comes to, whatever the results are that its nodes are
combined to. It starts with the tree alone; a task that is ready leaves its result in place of those
that it takes, and any other is put behind the tasks for its operands. -/
inductive Reached (tree : Expr) : List Task → List α → Prop
  | start : Reached tree [⟨tree, false⟩] []
  | combined {task : Task} {rest : List Task} {results : List α} (result : α) :
      Reached tree (task :: rest) results → task.isReady = true →
        Reached tree rest (result :: results.drop task.node.children.length)
  | expanded {task : Task} {rest : List Task} {results : List α} :
      Reached tree (task :: rest) results → task.isReady = false →
        Reached tree (Task.expand task.node rest) results

namespace Reached

variable {tree : Expr} {tasks : List Task} {results : List α}

/-- **The stacks of a fold always fit**: each step keeps the fit. -/
theorem balanced (reached : Reached tree tasks results) :
    Task.Balanced tasks results.length := by
  induction reached with
  | start => exact (Stacks.start (α := α) tree).balanced
  | combined result _ ready ih => exact (Stacks.combined ready ih result).balanced
  | expanded _ later ih => exact (Stacks.expanded later ih).balanced

/-- The results that a node takes are there. -/
theorem children_le_results {task : Task} {rest : List Task}
    (reached : Reached tree (task :: rest) results) (ready : task.isReady = true) :
    task.node.children.length ≤ results.length := by
  rw [← Task.takes_of_isReady ready]
  exact reached.balanced.1

/-- When no task is left there is one result. -/
theorem exists_result (reached : Reached tree [] results) : ∃ result, results = [result] :=
  List.length_eq_one_iff.mp reached.balanced

end Reached

/-- A call for a node that is combined on the stacks of a fold, with the results that it takes from
them. -/
def TakesReached (tree : Expr) (call : Combination ε α) : Prop :=
  ∃ (task : Task) (rest : List Task) (results : List α),
    Reached tree (task :: rest) results ∧ task.isReady = true ∧ call.visit.node = task.node ∧
      call.visit.results = (results.take task.node.children.length).reverse

/-- **Every call is made on stacks that the fold comes to.** -/
theorem Stacks.takesReached_run (combine : Visit α → ExceptT ε (StateM σ) α) {tree : Expr}
    (state : Stacks α) (reached : Reached tree state.tasks state.results) :
    ∀ (kept : σ) (earlier : List (Combination ε α)), ∃ calls,
      ((ExceptT.run (state.run (recording combine))).run (kept, earlier)).2.2 =
        earlier ++ calls ∧ ∀ call ∈ calls, TakesReached tree call := by
  induction state using (measure fun state : Stacks α => Task.totalWeight state.tasks).wf.induction
    with
  | _ state ih =>
      intro kept earlier
      obtain ⟨_ | ⟨task, rest⟩, results, balanced⟩ := state
      · rw [run]
        exact ⟨[], (List.append_nil _).symm, List.forall_mem_nil _⟩
      · cases ready : task.isReady with
        | false =>
            rw [run_of_not_isReady _ ready]
            refine ih _ ?_ (reached.expanded ready) kept earlier
            obtain ⟨node, _ | _⟩ := task
            · exact Task.totalWeight_expand node rest
            · cases ready
        | true =>
            let taken := visit ready balanced
            obtain ⟨⟨outcome, left⟩, called⟩ : ∃ ended, combine taken kept = ended := ⟨_, rfl⟩
            have recorded : (ExceptT.run (recording combine taken)).run (kept, earlier) =
                (outcome, left, earlier ++ [⟨taken, outcome⟩]) := by
              simp only [recording, ExceptT.run, StateT.run, called]
            have here : TakesReached tree ⟨taken, outcome⟩ :=
              ⟨task, rest, results, reached, ready, rfl, rfl⟩
            rw [run_of_isReady _ ready, run_bind_eq_match, recorded]
            cases outcome with
            | error fault =>
                exact ⟨[⟨taken, .error fault⟩], rfl, List.forall_mem_singleton.mpr here⟩
            | ok result =>
                obtain ⟨calls, behind, all⟩ := ih (combined ready balanced result)
                  (Nat.lt_add_of_pos_left task.weight_pos) (reached.combined result ready) left
                  (earlier ++ [⟨taken, .ok result⟩])
                exact ⟨⟨taken, .ok result⟩ :: calls, behind.trans (List.append_assoc ..),
                  List.forall_mem_cons.mpr ⟨here, all⟩⟩

end Expr

/-! ## The main statement -/

/-- **A fold is the computation by recursion.** In every lawful monad the two are the same. Between
two tasks of a fold of a tree the results that the next node takes are there, and behind the last
task one result is left. If `combine` keeps a state and may fail, then the fold calls it as
recursion does: node by node in post-order, each time with the outcomes of the calls for the
operands, which are those that lie on the stacks, and not again once it has failed. The last call
has the outcome of the fold. -/
theorem fold_is_recursion :
    (∀ (α : Type u) (m : Type u → Type v) [Monad m] [LawfulMonad m]
      (combine : Expr.Visit α → m α) (tree : Expr),
        tree.foldNodes combine = tree.recurseNodes combine) ∧
    (∀ (α : Type u) (tree : Expr) (results : List α),
      (∀ task rest, Expr.Reached tree (task :: rest) results → task.isReady = true →
        0 ≤ (results.length : Int) - task.node.children.length) ∧
      (Expr.Reached tree [] results → ∃ result, results = [result])) ∧
    ∀ (ε σ α : Type u) (combine : Expr.Visit α → ExceptT ε (StateM σ) α) (tree : Expr) (state : σ),
      ∃ outcome left calls,
        (ExceptT.run (tree.foldNodes combine)).run state = (outcome, left) ∧
        (ExceptT.run (tree.foldNodes (Expr.recording combine))).run (state, []) =
          (outcome, left, calls) ∧
        Expr.Combines tree calls outcome ∧ Expr.InOrder tree calls outcome ∧
        ∀ call ∈ calls, Expr.TakesReached tree call := by
  refine ⟨fun _ _ _ _ => Expr.foldNodes_eq_recurseNodes, fun α tree results => ⟨?_, ?_⟩, ?_⟩
  · intro task rest reached ready
    have held := reached.children_le_results ready
    omega
  · exact Expr.Reached.exists_result
  · intro ε σ α combine tree state
    obtain ⟨outcome, left, calls, plain, recorded, combines⟩ :=
      tree.exists_combines combine state []
    rw [← Expr.foldNodes_eq_recurseNodes] at plain recorded
    obtain ⟨calls', listed, all⟩ :=
      Expr.Stacks.takesReached_run combine (.start tree) .start state []
    have same : calls = calls' := (congrArg (·.2.2) recorded).symm.trans listed
    exact ⟨outcome, left, calls, plain, recorded, combines, combines.inOrder, same ▸ all⟩

/-- Nodes that are counted, with a negation that fails below zero: a fold that goes through, the
stacks before its last task, and a fold that fails at its second node of four. -/
theorem fold_is_recursion_with_failure :
    let combine : Expr.Visit Int → ExceptT String (StateM Nat) Int := fun visit count =>
      match visit.layer with
      | .literal value => (.ok value, count + 1)
      | .unary _ value =>
        if value < 0 then (.error "negative", count) else (.ok (-value), count + 1)
      | .binary _ left right => (.ok (left - right), count + 1)
    let whole := Expr.binary .subtract (.literal 7) (.unary .negate (.literal 2))
    let failing := Expr.binary .subtract (.unary .negate (.literal (-1))) (.literal 2)
    let last : List Int := [-2, 7]
    whole.foldNodes combine = whole.recurseNodes combine ∧
      (ExceptT.run (whole.foldNodes combine)).run 0 = (.ok 9, 4) ∧
      (∃ calls : List (Expr.Combination String Int), Expr.Combines whole calls (.ok 9) ∧
        Expr.combinedNodes calls =
          [.literal 7, .literal 2, .unary .negate (.literal 2), whole]) ∧
      Expr.Reached whole [⟨whole, true⟩] last ∧
      0 ≤ (last.length : Int) - whole.children.length ∧
      (ExceptT.run (failing.foldNodes combine)).run 0 = (.error "negative", 1) ∧
      ∃ calls : List (Expr.Combination String Int),
        Expr.Combines failing calls (.error "negative") ∧
        Expr.combinedNodes calls = [.literal (-1), .unary .negate (.literal (-1))] := by
  intro combine whole failing last
  obtain ⟨same, held, called⟩ := fold_is_recursion
  have wholeSame := same Int (ExceptT String (StateM Nat)) combine whole
  obtain ⟨outcome, left, calls, plain, -, combines, inOrder, -⟩ :=
    called String Nat Int combine whole 0
  obtain ⟨outcome', left', calls', plain', recorded', combines', -⟩ :=
    called String Nat Int combine failing 0
  rw [wholeSame] at plain
  rw [same] at recorded'
  cases plain
  cases recorded'
  -- the root, its first operand, its second one, the operand of that, and the negation
  have first : Expr.Reached whole [⟨whole, false⟩] ([] : List Int) := .start
  have reached : Expr.Reached whole [⟨whole, true⟩] last :=
    ((((first.expanded rfl).combined 7 rfl).expanded rfl).combined 2 rfl).combined (-2) rfl
  refine ⟨wholeSame, ?_, ⟨calls, combines, inOrder.postorder_eq.symm⟩, reached,
    (held Int whole last).1 _ _ reached rfl, ?_, ⟨_, combines', rfl⟩⟩
  · rw [wholeSame]
    rfl
  · rw [same]
    rfl

end DiceNotation
