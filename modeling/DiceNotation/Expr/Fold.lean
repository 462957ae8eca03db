import DiceNotation.Expr

/-!
# Folding an expression without recursion on the tree

The trees of long notations are thousands of levels high. A fold therefore keeps two stacks: the
tasks that are still to do, and the results that no node has taken yet. A task is a node, which
comes up twice. The first time its operands are put in front of it, the left one first; the second
time it is combined with their results, which are the last ones on the other stack. A node without
operands is combined at once. So the effects of `combine` happen from left to right and from the
leaves to the root.

The stacks always fit (`Task.Balanced`): every task finds the results that it takes, and when no
task is left there is one result. What is combined is a node with the results of its operands
(`Visit`), or just the layer that they make (`foldM`). `foldNodes_eq_recurseNodes` says that this is
the computation by recursion, for every lawful monad.
-/

set_option autoImplicit false

universe u v

namespace DiceNotation.Expr

/-- A node that is combined, with the results of its operands in order. -/
structure Visit (α : Type u) : Type u where
  node : Expr
  results : List α
  fits : results.length = node.children.length

/-- The node of a visit with the results in place of its operands. -/
def Visit.layer {α : Type u} : Visit α → Layer α
  | ⟨literal value, _, _⟩ => .literal value
  | ⟨unary sign _, [result], _⟩ => .unary sign result
  | ⟨binary operation _ _, [first, second], _⟩ => .binary operation first second

/-! ## The two stacks -/

/-- A node that is still to be combined, and whether its operands have been put in front of it. -/
structure Task where
  node : Expr
  isExpanded : Bool

namespace Task

/-- The tasks for the operands of a node, in front of the node itself. -/
def expand (node : Expr) (rest : List Task) : List Task :=
  node.children.map (Task.mk · false) ++ ⟨node, true⟩ :: rest

/-- A node is combined behind its operands, and at once if it has none. -/
def isReady (task : Task) : Bool :=
  task.isExpanded || task.node.children.isEmpty

/-- The number of results that must be there before a task is done, and are not there after it. -/
def takes (task : Task) : Nat :=
  if task.isExpanded then task.node.children.length else 0

/-- A bound on the steps that a task needs. -/
def weight (task : Task) : Nat :=
  if task.isExpanded then 1 else 2 * task.node.size

/-- A bound on the steps that a list of tasks needs. -/
def totalWeight : List Task → Nat
  | [] => 0
  | task :: rest => task.weight + totalWeight rest

theorem takes_of_isReady {task : Task} (ready : task.isReady = true) :
    task.takes = task.node.children.length := by
  obtain ⟨node, isExpanded⟩ := task
  cases isExpanded with
  | true => rfl
  | false =>
      have none : node.children = [] := by simpa [isReady] using ready
      simp [takes, none]

theorem weight_pos (task : Task) : 0 < task.weight := by
  unfold weight
  split
  · exact Nat.one_pos
  · cases task.node <;> simp [size]

theorem totalWeight_expand (node : Expr) (rest : List Task) :
    totalWeight (expand node rest) < 2 * node.size + totalWeight rest := by
  cases node <;> simp [expand, children, layer, Layer.operands, totalWeight, weight, size] <;> omega

/-- Tasks that fit a number of results: each finds the results that it takes, and leaves one in
their place, and one result is left in the end. -/
def Balanced : List Task → Nat → Prop
  | [], held => held = 1
  | task :: rest, held => task.takes ≤ held ∧ Balanced rest (held - task.takes + 1)

/-- Operands that are put in front of a node leave it the results that it takes. -/
theorem balanced_enter_iff {operands : List Expr} {rest : List Task} : ∀ {held : Nat},
    Balanced (operands.map (Task.mk · false) ++ rest) held ↔
      Balanced rest (held + operands.length) := by
  induction operands with
  | nil => exact Iff.rfl
  | cons operand operands ih =>
      intro held
      have step : Balanced (⟨operand, false⟩ :: (operands.map (Task.mk · false) ++ rest)) held ↔
          Balanced (operands.map (Task.mk · false) ++ rest) (held + 1) :=
        ⟨And.right, And.intro (Nat.zero_le held)⟩
      rw [List.map_cons, List.cons_append, step, ih, List.length_cons, Nat.add_assoc,
        Nat.add_comm 1]

/-- Putting the operands of a node in front of it keeps the fit. -/
theorem balanced_expand {node : Expr} {rest : List Task} {held : Nat}
    (balanced : Balanced (⟨node, false⟩ :: rest) held) : Balanced (expand node rest) held := by
  refine balanced_enter_iff.mpr ⟨Nat.le_add_left .., ?_⟩
  have taken : held + node.children.length - Task.takes ⟨node, true⟩ = held :=
    Nat.add_sub_cancel ..
  rw [taken]
  exact balanced.2

end Task

/-- The two stacks of a fold: the tasks that are still to do, and the results that no node has taken
yet, the last one first. -/
structure Stacks (α : Type u) : Type u where
  tasks : List Task
  results : List α
  balanced : Task.Balanced tasks results.length

namespace Stacks

variable {α : Type u}

/-- The stacks before the first task. -/
def start (tree : Expr) : Stacks α where
  tasks := [⟨tree, false⟩]
  results := []
  balanced := ⟨Nat.le_refl 0, rfl⟩

variable {task : Task} {rest : List Task} {results : List α}

/-- The node of a task that is ready, with the results that it takes. -/
def visit (ready : task.isReady = true) (balanced : Task.Balanced (task :: rest) results.length) :
    Visit α where
  node := task.node
  results := (results.take task.node.children.length).reverse
  fits := by
    have held := balanced.1
    rw [Task.takes_of_isReady ready] at held
    rw [List.length_reverse, List.length_take, Nat.min_eq_left held]

/-- The stacks behind a node that has been combined. -/
def combined (ready : task.isReady = true)
    (balanced : Task.Balanced (task :: rest) results.length) (result : α) : Stacks α where
  tasks := rest
  results := result :: results.drop task.node.children.length
  balanced := by
    rw [List.length_cons, List.length_drop, ← Task.takes_of_isReady ready]
    exact balanced.2

/-- The stacks behind a node that has been met for the first time. -/
def expanded (later : task.isReady = false)
    (balanced : Task.Balanced (task :: rest) results.length) : Stacks α where
  tasks := Task.expand task.node rest
  results := results
  balanced := by
    obtain ⟨node, _ | _⟩ := task
    · exact Task.balanced_expand balanced
    · cases later

/-- Does the tasks in order. -/
@[specialize]
def run {m : Type u → Type v} [Monad m] (combine : Visit α → m α) : Stacks α → m α
  | ⟨[], results, balanced⟩ => pure (results.head (List.ne_nil_of_length_eq_add_one balanced))
  | ⟨task :: rest, results, balanced⟩ =>
    match ready : task.isReady with
    | true => do
      let result ← combine (visit ready balanced)
      run combine (combined ready balanced result)
    | false => run combine (expanded ready balanced)
termination_by state => Task.totalWeight state.tasks
decreasing_by
  · exact Nat.lt_add_of_pos_left task.weight_pos
  · obtain ⟨node, _ | _⟩ := task
    · exact Task.totalWeight_expand node rest
    · cases ready

variable {m : Type u → Type v} [Monad m] (combine : Visit α → m α)

theorem run_of_isReady (ready : task.isReady = true)
    (balanced : Task.Balanced (task :: rest) results.length) :
    run combine ⟨task :: rest, results, balanced⟩ =
      combine (visit ready balanced) >>= fun result =>
        run combine (combined ready balanced result) := by
  rw [run]
  split
  · rfl
  · rename_i later
    exact absurd (ready.symm.trans later) Bool.noConfusion

theorem run_of_not_isReady (later : task.isReady = false)
    (balanced : Task.Balanced (task :: rest) results.length) :
    run combine ⟨task :: rest, results, balanced⟩ = run combine (expanded later balanced) := by
  rw [run]
  split
  · rename_i ready
    exact absurd (later.symm.trans ready) Bool.noConfusion
  · rfl

theorem run_nil {result : α} (balanced : Task.Balanced [] [result].length) :
    run combine ⟨[], [result], balanced⟩ = pure result := by
  rw [run]
  rfl

end Stacks

/-! ## Folds -/

section

variable {α : Type u} {m : Type u → Type v} [Monad m]

/-- A bottom-up computation with effects. -/
@[inline]
def foldNodes (combine : Visit α → m α) (tree : Expr) : m α :=
  (Stacks.start tree).run combine

/-- A bottom-up computation with effects that looks at layers only. -/
@[inline]
def foldM (combine : Layer α → m α) (tree : Expr) : m α :=
  tree.foldNodes fun visit => combine visit.layer

/-- A bottom-up computation without effects. -/
@[inline]
def fold (combine : Layer α → α) (tree : Expr) : α :=
  foldM (m := Id) combine tree

/-- A bottom-up computation, by recursion on the tree. -/
def recurseNodes (combine : Visit α → m α) : Expr → m α
  | literal value => combine ⟨literal value, [], rfl⟩
  | unary sign operand => do
    let result ← operand.recurseNodes combine
    combine ⟨unary sign operand, [result], rfl⟩
  | binary operation left right => do
    let first ← left.recurseNodes combine
    let second ← right.recurseNodes combine
    combine ⟨binary operation left right, [first, second], rfl⟩

variable [LawfulMonad m]

/-- **A node that is met computes its result by recursion**, and leaves it to the other tasks. -/
theorem Stacks.run_enter (combine : Visit α → m α) (tree : Expr) : ∀ {rest : List Task}
    {results : List α} (balanced : Task.Balanced (⟨tree, false⟩ :: rest) results.length),
    run combine ⟨⟨tree, false⟩ :: rest, results, balanced⟩ =
      tree.recurseNodes combine >>= fun result =>
        run combine ⟨rest, result :: results, balanced.2⟩ := by
  induction tree with
  | literal value =>
      intro rest results balanced
      exact run_of_isReady combine rfl balanced
  | unary sign operand ih =>
      intro rest results balanced
      have enter : run combine ⟨⟨unary sign operand, false⟩ :: rest, results, balanced⟩ =
          operand.recurseNodes combine >>= fun result =>
            run combine ⟨⟨unary sign operand, true⟩ :: rest, result :: results, _⟩ :=
        (run_of_not_isReady combine rfl balanced).trans (ih _)
      rw [enter, recurseNodes, bind_assoc]
      refine bind_congr fun result => ?_
      exact run_of_isReady combine rfl _
  | binary operation left right ihLeft ihRight =>
      intro rest results balanced
      have enter : run combine ⟨⟨binary operation left right, false⟩ :: rest, results, balanced⟩ =
          left.recurseNodes combine >>= fun first =>
            run combine ⟨⟨right, false⟩ :: ⟨binary operation left right, true⟩ :: rest,
              first :: results, _⟩ :=
        (run_of_not_isReady combine rfl balanced).trans (ihLeft _)
      rw [enter, recurseNodes, bind_assoc]
      refine bind_congr fun first => (ihRight _).trans ?_
      rw [bind_assoc]
      refine bind_congr fun second => ?_
      exact run_of_isReady combine rfl _

/-- **Folding is the computation by recursion.** -/
theorem foldNodes_eq_recurseNodes (combine : Visit α → m α) (tree : Expr) :
    tree.foldNodes combine = tree.recurseNodes combine := by
  refine (Stacks.run_enter combine tree (Stacks.start tree).balanced).trans ?_
  exact (bind_congr fun _ => Stacks.run_nil combine _).trans (bind_pure _)

/-- Folding layers is the computation on layers by recursion. -/
theorem foldM_eq_recurse (combine : Layer α → m α) (tree : Expr) :
    tree.foldM combine = tree.recurse combine := by
  rw [foldM, foldNodes_eq_recurseNodes]
  induction tree with
  | literal value => rfl
  | unary sign operand ih => rw [recurseNodes, ih, recurse]; rfl
  | binary operation left right ihLeft ihRight =>
      rw [recurseNodes, ihLeft, ihRight, recurse]; rfl

end

section

variable {α : Type} (combine : Layer α → α)

theorem fold_literal (value : Int) :
    (literal value).fold combine = combine (.literal value) := by
  simp only [fold, foldM_eq_recurse]
  rfl

theorem fold_unary (sign : Sign) (operand : Expr) :
    (unary sign operand).fold combine = combine (.unary sign (operand.fold combine)) := by
  simp only [fold, foldM_eq_recurse]
  rfl

theorem fold_binary (operation : Operation) (left right : Expr) :
    (binary operation left right).fold combine =
      combine (.binary operation (left.fold combine) (right.fold combine)) := by
  simp only [fold, foldM_eq_recurse]
  rfl

end

end DiceNotation.Expr
