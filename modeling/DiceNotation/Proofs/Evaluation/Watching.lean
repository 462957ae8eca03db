import DiceNotation.Proofs.Evaluation.Course

/-!
# Watching an evaluation

An evaluation finishes one node after the other, operands before the node that takes them. To say
what it finishes, the evaluator is watched: the same fold runs with the same `combine`, and every
node that gets a value is written down with its value, its finished operands and the draws made for
it (`Evaluation.watch`).

Watching changes neither the outcome nor the table (`Table.unwatched_watch`). And what one node
does to the table and to the nodes written down, a whole evaluation does, if it can be done in
sequence (`Table.watch_invariant`).
-/

set_option autoImplicit false

namespace DiceNotation

/-! ## Nodes -/

/-- A layer with its results changed. -/
def Layer.map {α β : Type} (f : α → β) : Layer α → Layer β
  | literal value => literal value
  | unary sign operand => unary sign (f operand)
  | binary operation left right => binary operation (f left) (f right)

/-- A finished node, with its finished operands, the draws made for it and its value. -/
inductive Finished
  | literal (written : Int) (draws : List Int) (value : Int)
  | unary (sign : Sign) (operand : Finished) (draws : List Int) (value : Int)
  | binary (operation : Operation) (left right : Finished) (draws : List Int) (value : Int)

namespace Finished

/-- The node of a layer of finished operands. -/
def ofLayer (draws : List Int) (value : Int) : Layer Finished → Finished
  | .literal written => literal written draws value
  | .unary sign operand => unary sign operand draws value
  | .binary operation left right => binary operation left right draws value

/-- The value that the evaluator computed for a node. -/
def value : Finished → Int
  | literal _ _ value => value
  | unary _ _ _ value => value
  | binary _ _ _ _ value => value

/-- The finished operands of a node, from left to right. -/
def operands : Finished → List Finished
  | literal _ _ _ => []
  | unary _ operand _ _ => [operand]
  | binary _ left right _ _ => [left, right]

/-- The expression that a finished node is the root of. -/
def tree : Finished → Expr
  | literal written _ _ => .literal written
  | unary sign operand _ _ => .unary sign operand.tree
  | binary operation left right _ _ => .binary operation left.tree right.tree

end Finished

/-! ## Watching the evaluator -/

variable {σ : Type}

/-- What a watched evaluation leaves behind. -/
structure Watched (σ : Type) where
  outcome : Except Fault Finished
  table : Table σ
  /-- The nodes finished, in order. -/
  finished : List Finished

/-- Evaluates a node whose operands are finished. The node is finished if it gets a value. -/
def Table.finish (table : Table σ) (source : Source σ) (rules : Rules) (layer : Layer Finished) :
    Watched σ :=
  match (Evaluation.combine source rules (layer.map Finished.value)).on table with
  | (.error fault, after) => ⟨.error fault, after, []⟩
  | (.ok value, after) =>
    let draws := (after.draws.toList.drop table.draws.size).map Draw.value
    let node := Finished.ofLayer draws value layer
    ⟨.ok node, after, [node]⟩

/-- Evaluates a node and writes it down, if it is finished, behind the nodes finished before. -/
def Evaluation.watch (source : Source σ) (rules : Rules) (layer : Layer Finished) :
    ExceptT Fault (StateM (Table σ × List Finished)) Finished :=
  fun (table, earlier) =>
    let watched := table.finish source rules layer
    (watched.outcome, watched.table, earlier ++ watched.finished)

/-- Evaluates an expression on a table and writes down the nodes that are finished. -/
def Table.watch (table : Table σ) (source : Source σ) (rules : Rules) (tree : Expr) : Watched σ :=
  let (outcome, after, finished) :=
    (ExceptT.run (tree.foldM (Evaluation.watch source rules))).run (table, [])
  ⟨outcome, after, finished⟩

namespace Watched

/-- A watched evaluation behind nodes that were finished before. -/
def behind (before : List Finished) (watched : Watched σ) : Watched σ :=
  { watched with finished := before ++ watched.finished }

theorem behind_nil (watched : Watched σ) : watched.behind [] = watched := rfl

theorem behind_behind (first second : List Finished) (watched : Watched σ) :
    (watched.behind second).behind first = watched.behind (first ++ second) := by
  simp [behind]

/-- Continues a watched evaluation from its node, unless it failed. -/
def andThen (watched : Watched σ) (next : Finished → Table σ → Watched σ) : Watched σ :=
  match watched.outcome with
  | .error _ => watched
  | .ok node => (next node watched.table).behind watched.finished

variable {watched : Watched σ} {next : Finished → Table σ → Watched σ}

theorem andThen_of_error {fault : Fault} (ended : watched.outcome = .error fault) :
    watched.andThen next = watched := by
  rw [andThen, ended]

theorem andThen_of_ok {node : Finished} (ended : watched.outcome = .ok node) :
    watched.andThen next = (next node watched.table).behind watched.finished := by
  rw [andThen, ended]

end Watched

/-- A computation shows a watched evaluation: it has its outcome, leaves its table, and writes its
nodes behind the earlier ones. -/
def Shows (play : ExceptT Fault (StateM (Table σ × List Finished)) Finished)
    (watched : Table σ → Watched σ) : Prop :=
  ∀ (table : Table σ) (earlier : List Finished), (ExceptT.run play).run (table, earlier) =
    ((watched table).outcome, (watched table).table, earlier ++ (watched table).finished)

theorem Shows.bind {first : ExceptT Fault (StateM (Table σ × List Finished)) Finished}
    {next : Finished → ExceptT Fault (StateM (Table σ × List Finished)) Finished}
    {watched : Table σ → Watched σ} {rest : Finished → Table σ → Watched σ}
    (before : Shows first watched) (after : ∀ node, Shows (next node) (rest node)) :
    Shows (first >>= next) fun table => (watched table).andThen rest := by
  intro table earlier
  rw [run_bind_eq_match, before table earlier]
  cases ended : (watched table).outcome with
  | error fault => simp [Watched.andThen_of_error ended, ended]
  | ok node =>
      have later := after node (watched table).table (earlier ++ (watched table).finished)
      simp [Watched.andThen_of_ok ended, Watched.behind, later]

theorem shows_watch (source : Source σ) (rules : Rules) (layer : Layer Finished) :
    Shows (Evaluation.watch source rules layer) fun table => table.finish source rules layer :=
  fun _ _ => rfl

section

variable {source : Source σ} {rules : Rules} {watched : Table σ → Watched σ}

/-- What a computation shows is what it leaves when no node was finished before. -/
theorem Table.watch_eq_of_shows (tree : Expr)
    (shown : Shows (tree.recurse (Evaluation.watch source rules)) watched) (table : Table σ) :
    table.watch source rules tree = watched table := by
  simp [watch, Expr.foldM_eq_recurse, shown table []]

theorem Shows.watch (tree : Expr)
    (shown : Shows (tree.recurse (Evaluation.watch source rules)) watched) :
    Shows (tree.recurse (Evaluation.watch source rules)) fun table =>
      table.watch source rules tree := by
  have same : (fun table : Table σ => table.watch source rules tree) = watched :=
    funext (Table.watch_eq_of_shows tree shown)
  rw [same]
  exact shown

end

/-- The watched evaluator shows what it leaves. -/
theorem shows_recurse (source : Source σ) (rules : Rules) (tree : Expr) :
    Shows (tree.recurse (Evaluation.watch source rules)) fun table =>
      table.watch source rules tree := by
  induction tree with
  | literal value =>
      exact Shows.watch (.literal value) (shows_watch source rules (.literal value))
  | unary sign operand ih =>
      exact Shows.watch (.unary sign operand) <|
        ih.bind fun node => shows_watch source rules (.unary sign node)
  | binary operation left right ihLeft ihRight =>
      exact Shows.watch (.binary operation left right) <|
        ihLeft.bind fun first => ihRight.bind fun second =>
          shows_watch source rules (.binary operation first second)

namespace Table

variable (table : Table σ) (source : Source σ) (rules : Rules)

theorem watch_literal (value : Int) :
    table.watch source rules (.literal value) = table.finish source rules (.literal value) :=
  watch_eq_of_shows (.literal value) (shows_watch source rules (.literal value)) table

theorem watch_unary (sign : Sign) (operand : Expr) :
    table.watch source rules (.unary sign operand) =
      (table.watch source rules operand).andThen fun node after =>
        after.finish source rules (.unary sign node) :=
  watch_eq_of_shows (.unary sign operand)
    ((shows_recurse source rules operand).bind fun node =>
      shows_watch source rules (.unary sign node)) table

theorem watch_binary (operation : Operation) (left right : Expr) :
    table.watch source rules (.binary operation left right) =
      (table.watch source rules left).andThen fun first after =>
        (after.watch source rules right).andThen fun second after =>
          after.finish source rules (.binary operation first second) :=
  watch_eq_of_shows (.binary operation left right)
    ((shows_recurse source rules left).bind fun first =>
      (shows_recurse source rules right).bind fun second =>
        shows_watch source rules (.binary operation first second)) table

end Table

/-! ## Watching changes nothing -/

theorem Play.on_bind_of_ok {α β : Type} {first : Play σ α} {next : α → Play σ β}
    {table left : Table σ} {value : α} (ended : first.on table = (.ok value, left)) :
    (first >>= next).on table = (next value).on left := by
  have ended : (ExceptT.run first).run table = _ := ended
  rw [Play.on, run_bind_eq_match, ended]
  rfl

theorem Play.on_bind_of_error {α β : Type} {first : Play σ α} {next : α → Play σ β}
    {table left : Table σ} {fault : Fault} (ended : first.on table = (.error fault, left)) :
    (first >>= next).on table = (.error fault, left) := by
  have ended : (ExceptT.run first).run table = _ := ended
  rw [Play.on, run_bind_eq_match, ended]

/-- What an evaluation leaves that is not watched. -/
def Watched.unwatched (watched : Watched σ) : Except Fault Int × Table σ :=
  (watched.outcome.map Finished.value, watched.table)

theorem Finished.value_ofLayer (draws : List Int) (value : Int) (layer : Layer Finished) :
    (ofLayer draws value layer).value = value := by
  cases layer <;> rfl

theorem Table.unwatched_finish (table : Table σ) (source : Source σ) (rules : Rules)
    (layer : Layer Finished) :
    (table.finish source rules layer).unwatched =
      (Evaluation.combine source rules (layer.map Finished.value)).on table := by
  unfold finish Watched.unwatched
  rcases (Evaluation.combine source rules (layer.map Finished.value)).on table with
    ⟨fault | value, after⟩
  · rfl
  · simp [Except.map, Finished.value_ofLayer]

/-- A computation that does what a watched evaluation does, and then goes on as that one does. -/
theorem Watched.unwatched_andThen {first : Play σ Int} {next : Int → Play σ Int} {table : Table σ}
    {watched : Watched σ} {rest : Finished → Table σ → Watched σ}
    (before : watched.unwatched = first.on table)
    (after : ∀ node left, (rest node left).unwatched = (next node.value).on left) :
    (watched.andThen rest).unwatched = (first >>= next).on table := by
  cases ended : watched.outcome with
  | error fault =>
      have stopped : first.on table = (.error fault, watched.table) := by
        rw [← before, unwatched, ended]
        rfl
      rw [andThen_of_error ended, Play.on_bind_of_error stopped, before, stopped]
  | ok node =>
      have went : first.on table = (.ok node.value, watched.table) := by
        rw [← before, unwatched, ended]
        rfl
      rw [andThen_of_ok ended, Play.on_bind_of_ok went]
      exact after node watched.table

/-- **Watching changes nothing**: the outcome and the table are those of the evaluation. -/
theorem Table.unwatched_watch (table : Table σ) (source : Source σ) (rules : Rules) (tree : Expr) :
    (table.watch source rules tree).unwatched = table.evaluate source rules tree := by
  rw [evaluate, Expr.evaluate, Expr.foldM_eq_recurse]
  induction tree generalizing table with
  | literal value =>
      rw [watch_literal, unwatched_finish]
      rfl
  | unary sign operand ih =>
      rw [watch_unary]
      exact Watched.unwatched_andThen (ih table) fun node left =>
        left.unwatched_finish source rules (.unary sign node)
  | binary operation left right ihLeft ihRight =>
      rw [watch_binary]
      exact Watched.unwatched_andThen (ihLeft table) fun first after =>
        Watched.unwatched_andThen (ihRight after) fun second left =>
          left.unwatched_finish source rules (.binary operation first second)

/-! ## What holds of every step holds of the whole -/

/-- **What every node keeps, a watched evaluation keeps.** The property may speak of the table
before, the table after and the nodes finished between them. -/
theorem Table.watch_invariant {source : Source σ} {rules : Rules}
    (holds : Table σ → Table σ → List Finished → Prop)
    (append : ∀ {first second third : Table σ} {before behind : List Finished},
      holds first second before → holds second third behind → holds first third (before ++ behind))
    (step : ∀ (layer : Layer Finished) (table : Table σ),
      let watched := table.finish source rules layer
      holds table watched.table watched.finished)
    (tree : Expr) (table : Table σ) :
    holds table (table.watch source rules tree).table (table.watch source rules tree).finished := by
  have andThen {table : Table σ} {watched : Watched σ} {next : Finished → Table σ → Watched σ}
      (before : holds table watched.table watched.finished)
      (after : ∀ node, holds watched.table (next node watched.table).table
        (next node watched.table).finished) :
      holds table (watched.andThen next).table (watched.andThen next).finished := by
    unfold Watched.andThen
    split
    · exact before
    · exact append before (after _)
  induction tree generalizing table with
  | literal value =>
      rw [watch_literal]
      exact step (.literal value) table
  | unary sign operand ih =>
      rw [watch_unary]
      exact andThen (ih table) fun node => step (.unary sign node) _
  | binary operation left right ihLeft ihRight =>
      rw [watch_binary]
      exact andThen (ihLeft table) fun first => andThen (ihRight _) fun second =>
        step (.binary operation first second) _

end DiceNotation
