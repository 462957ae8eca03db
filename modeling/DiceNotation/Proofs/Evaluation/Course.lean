import DiceNotation.Evaluation
import Mathlib

/-!
# The course of an evaluation

The evaluator folds a tree with two stacks and keeps everything that happens on a table. What it
does can be said without either, by recursion on the tree: an expression has, from a state of the
source, a course (`Expr.course`). The course of a node is that of its left operand, then that of its
right operand, then its own, and a course that stops is not continued (`Course.andThen`). A course
tells the total or the halt, the state the source is left in, and in order the requests put to the
source, the draws and the finished rolls.

A halt is a refused request, a result out of range or a roll that must not begin. Each has a fault
that says so (`Halt.fault`). The evaluator reports this fault with one exception: a result, a number
of dice or a number of sides with too many digits to be written cannot be told in a message, and
another fault takes its place (`Halt.reported`).

The main statement is `evaluate_eq_course`. Evaluating an expression on a table is following its
course; a source that writes down what it is asked (`Source.logged`) has then been asked exactly
the requests of the course; and the fault is the one that says why the course stopped exactly when
this can be told. `evaluate_unwritable` shows that a result that cannot be told can come up.
-/

set_option autoImplicit false

namespace DiceNotation

variable {σ : Type}

/-! ## Courses -/

/-- Why a course stops. -/
inductive Halt
  /-- The source did not answer a request. -/
  | refused (fault : Fault)
  /-- A result is outside the range of a word. -/
  | overflow (result : Int)
  /-- A roll must not begin. -/
  | invalid (fault : Fault)

namespace Halt

/-- The fault that says why a course stopped. -/
def fault : Halt → Fault
  | refused fault => fault
  | overflow result => .overflow result
  | invalid fault => fault

/-- The fault that is reported. The words of the source are passed on; what the evaluator says on
its own must be such that it can be written. -/
def reported : Halt → Fault
  | refused fault => fault
  | overflow result => (Fault.overflow result).told
  | invalid fault => fault.told

/-- Whether it can be told why a course stopped: the result is not too long to be written, nor is
the number that keeps a roll from its beginning. -/
def CanBeTold : Halt → Prop
  | refused _ => True
  | overflow result => Text.isWritable result = true
  | invalid fault => fault.isWritable = true

theorem reported_eq_fault_iff {halt : Halt} : halt.reported = halt.fault ↔ halt.CanBeTold := by
  cases halt with
  | refused fault => exact iff_of_true rfl trivial
  | overflow result => exact Fault.told_eq_self_iff.trans (by rw [Fault.isWritable_overflow]; rfl)
  | invalid fault => exact Fault.told_eq_self_iff

end Halt

/-- What happens from one state of the source on. -/
structure Course (σ : Type) where
  outcome : Except Halt Int
  /-- The state in which the source is left. -/
  source : σ
  /-- The number of sides in every request from one to that number. -/
  requests : List Int := []
  draws : List Draw := []
  rolls : List DieRoll := []

namespace Course

/-- A course that ends in a value with nothing asked. -/
def done (value : Int) (state : σ) : Course σ :=
  { outcome := .ok value, source := state }

/-- A course that stops with nothing asked. -/
def stopped (halt : Halt) (state : σ) : Course σ :=
  { outcome := .error halt, source := state }

/-- A course continued from its value, unless it stopped. -/
def andThen (course : Course σ) (next : Int → σ → Course σ) : Course σ :=
  match course.outcome with
  | .error _ => course
  | .ok value =>
    let later := next value course.source
    { later with
      requests := course.requests ++ later.requests
      draws := course.draws ++ later.draws
      rolls := course.rolls ++ later.rolls }

/-- One course and then another, with the outcome of the other. -/
def followedBy (first second : Course σ) : Course σ :=
  { second with
    requests := first.requests ++ second.requests
    draws := first.draws ++ second.draws
    rolls := first.rolls ++ second.rolls }

theorem andThen_of_ok {course : Course σ} {value : Int} (ended : course.outcome = .ok value)
    (next : Int → σ → Course σ) :
    course.andThen next = course.followedBy (next value course.source) := by
  rw [andThen, ended]
  rfl

theorem andThen_of_error {course : Course σ} {halt : Halt} (stops : course.outcome = .error halt)
    (next : Int → σ → Course σ) : course.andThen next = course := by
  rw [andThen, stops]

/-- A continued course ends in a value only if it ends in one and its continuation does. -/
theorem exists_of_andThen_eq_ok {course : Course σ} {next : Int → σ → Course σ} {total : Int}
    (ended : (course.andThen next).outcome = .ok total) :
    ∃ value, course.outcome = .ok value ∧ (next value course.source).outcome = .ok total := by
  cases begun : course.outcome with
  | error halt =>
      rw [andThen_of_error begun, begun] at ended
      cases ended
  | ok value =>
      rw [andThen_of_ok begun] at ended
      exact ⟨value, rfl, ended⟩

/-- A result, which must be in the range of a word. -/
def result (value : Int) (state : σ) : Course σ :=
  if Word.least ≤ value ∧ value ≤ Word.greatest then done value state
  else stopped (.overflow value) state

theorem result_of_holds {value : Int} (holds : Word.Holds value) (state : σ) :
    result value state = done value state :=
  if_pos holds

theorem result_of_not_holds {value : Int} (outside : ¬ Word.Holds value) (state : σ) :
    result value state = stopped (.overflow value) state :=
  if_neg outside

/-- One request to the source. -/
def request (source : Source σ) (sides : Int) (state : σ) : Course σ :=
  match source.request 1 sides state with
  | (.ok value, next) =>
    { outcome := .ok value, source := next, requests := [sides], draws := [⟨sides, value⟩] }
  | (.error fault, next) =>
    { outcome := .error (.refused fault), source := next, requests := [sides] }

/-- Dice thrown one by one onto a sum, which must stay in range. -/
def dice (source : Source σ) (sides : Int) : Nat → Int → σ → Course σ
  | 0, sum => done sum
  | remaining + 1, sum => fun state =>
    ((request source sides state).andThen fun value => result (sum + value)).andThen
      (dice source sides remaining)

/-- A course behind one answered request. -/
def behind (draw : Draw) (course : Course σ) : Course σ :=
  { course with requests := draw.sides :: course.requests, draws := draw :: course.draws }

/-- A course with its draws as a finished roll, if it did not stop. -/
def recorded (count sides : Int) (course : Course σ) : Course σ :=
  match course.outcome with
  | .error _ => course
  | .ok _ => { course with rolls := [⟨count, sides, course.draws.map Draw.value⟩] }

/-- A roll: its number of dice must be at least one and within the limit, then it must have a side,
and only then dice are thrown. -/
def roll (source : Source σ) (rules : Rules) (count sides : Int) (state : σ) : Course σ :=
  if count < 1 then stopped (.invalid (.rollCount count none)) state
  else if rules.maxDice.any (· < count) then
    stopped (.invalid (.rollCount count rules.maxDice)) state
  else if sides < 1 then stopped (.invalid (.sideCount sides)) state
  else if rules.record then (dice source sides count.toNat 0 state).recorded count sides
  else dice source sides count.toNat 0 state

end Course

/-- The course of an expression: operands from left to right, then the node. -/
def Expr.course (source : Source σ) (rules : Rules) : Expr → σ → Course σ
  | literal value => Course.done value
  | unary .identity operand => operand.course source rules
  | unary .negate operand => fun state =>
    (operand.course source rules state).andThen fun value => Course.result (-value)
  | binary operation left right => fun state =>
    (left.course source rules state).andThen fun first state =>
      (right.course source rules state).andThen fun second =>
        match operation with
        | .add => Course.result (first + second)
        | .subtract => Course.result (first - second)
        | .roll _ => Course.roll source rules first second

/-- **What the courses of expressions are made of.** If two courses that end in the same value are
related, two results are, two rolls are, and related courses with related continuations are, then
the two courses of every expression are related. -/
theorem Expr.course_related {τ : Type} (source : Source σ) (other : Source τ) (rules rules' : Rules)
    (related : (σ → Course σ) → (τ → Course τ) → Prop)
    (done : ∀ value, related (Course.done value) (Course.done value))
    (result : ∀ value, related (Course.result value) (Course.result value))
    (roll : ∀ count sides,
      related (Course.roll source rules count sides) (Course.roll other rules' count sides))
    (andThen : ∀ {course : σ → Course σ} {course' : τ → Course τ} {next : Int → σ → Course σ}
      {next' : Int → τ → Course τ}, related course course' →
        (∀ value, related (next value) (next' value)) →
          related (fun state => (course state).andThen next) fun state =>
            (course' state).andThen next')
    (tree : Expr) : related (tree.course source rules) (tree.course other rules') := by
  induction tree with
  | literal value => exact done value
  | unary sign operand ih =>
      cases sign with
      | identity => exact ih
      | negate => exact andThen ih fun value => result (-value)
  | binary operation left right ihLeft ihRight =>
      refine andThen ihLeft fun first => andThen ihRight fun second => ?_
      cases operation with
      | add => exact result (first + second)
      | subtract => exact result (first - second)
      | roll isImplicit => exact roll first second

/-- What holds of values, results and rolls, and of a continued course if it holds of its parts,
holds of the courses of every expression. -/
theorem Expr.course_holds {source : Source σ} {rules : Rules} (holds : Course σ → Prop)
    (done : ∀ value state, holds (Course.done value state))
    (result : ∀ value state, holds (Course.result value state))
    (roll : ∀ count sides state, holds (Course.roll source rules count sides state))
    (andThen : ∀ {course : Course σ} {next : Int → σ → Course σ}, holds course →
      (∀ value state, holds (next value state)) → holds (course.andThen next))
    (tree : Expr) (state : σ) : holds (tree.course source rules state) :=
  course_related source source rules rules (fun course _ => ∀ state, holds (course state)) done
    result roll (fun before after state => andThen (before state) after) tree state

/-- A table after a course. -/
def Table.after (table : Table σ) (course : Course σ) : Table σ where
  source := course.source
  rolls := table.rolls ++ course.rolls.toArray
  draws := table.draws ++ course.draws.toArray

namespace Table

theorem after_done (table : Table σ) (value : Int) :
    table.after (Course.done value table.source) = table := by
  simp [after, Course.done]

theorem after_stopped (table : Table σ) (halt : Halt) :
    table.after (Course.stopped halt table.source) = table := by
  simp [after, Course.stopped]

/-- A course continued from its value leaves the table that the continuation leaves. -/
theorem after_andThen {course : Course σ} {value : Int} (ended : course.outcome = .ok value)
    (table : Table σ) (next : Int → σ → Course σ) :
    table.after (course.andThen next) =
      (table.after course).after (next value (table.after course).source) := by
  simp [after, Course.andThen, ended, ← List.append_toArray, Array.append_assoc]

end Table

/-! ## The course of one die -/

namespace Course

variable {source : Source σ} {sides sum value : Int} {remaining : Nat} {state next : σ}

/-- A refused request ends a throw. -/
theorem dice_of_refused {fault : Fault}
    (answer : source.request 1 sides state = (.error fault, next)) :
    dice source sides (remaining + 1) sum state =
      { outcome := .error (.refused fault), source := next, requests := [sides] } := by
  simp [dice, request, andThen, answer]

/-- A draw that leads out of range ends a throw. -/
theorem dice_of_overflow (answer : source.request 1 sides state = (.ok value, next))
    (outside : ¬ Word.Holds (sum + value)) :
    dice source sides (remaining + 1) sum state =
      (stopped (.overflow (sum + value)) next).behind ⟨sides, value⟩ := by
  simp only [dice, request, andThen, answer, result_of_not_holds outside]
  rfl

/-- A draw that stays in range is followed by the other dice. -/
theorem dice_of_answer (answer : source.request 1 sides state = (.ok value, next))
    (inside : Word.Holds (sum + value)) :
    dice source sides (remaining + 1) sum state =
      (dice source sides remaining (sum + value) next).behind ⟨sides, value⟩ := by
  simp only [dice, request, andThen, answer, result_of_holds inside]
  rfl

/-- Throwing dice finishes no roll. -/
theorem rolls_dice : (dice source sides remaining sum state).rolls = [] := by
  induction remaining generalizing sum state with
  | zero => rfl
  | succ remaining ih =>
      rcases answer : source.request 1 sides state with ⟨fault | value, next⟩
      · rw [dice_of_refused answer]
      · by_cases inside : Word.Holds (sum + value)
        · rw [dice_of_answer answer inside]
          exact ih
        · rw [dice_of_overflow answer inside]
          rfl

end Course

/-! ## Evaluating is following the course -/

/-- A computation that may fail runs up to its first failure. -/
theorem run_bind_eq_match.{u} {ε state α β : Type u} (first : ExceptT ε (StateM state) α)
    (next : α → ExceptT ε (StateM state) β) (start : state) :
    (ExceptT.run (first >>= next)).run start =
      match (ExceptT.run first).run start with
      | (.ok value, left) => (ExceptT.run (next value)).run left
      | (.error fault, left) => (.error fault, left) := by
  simp only [ExceptT.run_bind, StateT.run_bind]
  rcases (ExceptT.run first).run start with ⟨_ | _, _⟩ <;> rfl

/-- A computation on a table follows a course: it has its outcome, as far as a message can tell it,
and leaves the table as the course does. -/
def Play.Follows (play : Play σ Int) (course : σ → Course σ) : Prop :=
  ∀ table : Table σ, play.on table =
    ((course table.source).outcome.mapError Halt.reported, table.after (course table.source))

namespace Play.Follows

theorem pure (value : Int) : Follows (σ := σ) (Pure.pure value) (Course.done value) := by
  intro table
  rw [table.after_done]
  rfl

theorem bind {first : Play σ Int} {course : σ → Course σ} {next : Int → Play σ Int}
    {rest : Int → σ → Course σ} (before : Follows first course)
    (after : ∀ value, Follows (next value) (rest value)) :
    Follows (first >>= next) fun state => (course state).andThen rest := by
  intro table
  have start : (ExceptT.run first).run table = _ := before table
  rw [Play.on, run_bind_eq_match, start]
  cases ended : (course table.source).outcome with
  | error halt =>
      simp [Course.andThen, ended, Except.mapError]
  | ok value =>
      have outcome : ((course table.source).andThen rest).outcome =
          (rest value (table.after (course table.source)).source).outcome := by
        simp only [Course.andThen, ended]
        rfl
      rw [Table.after_andThen ended, outcome]
      exact after value (table.after (course table.source))

end Play.Follows

namespace Evaluation

theorem follows_checked (value : Int) :
    Play.Follows (σ := σ) (combine.liftExcept (checked value)) (Course.result value) := by
  intro table
  have alone : Play.on (combine.liftExcept (checked value)) table = (checked value, table) := rfl
  rw [alone]
  unfold checked
  by_cases holds : Word.Holds value
  · rw [if_pos holds, Course.result_of_holds holds, table.after_done]
    rfl
  · rw [if_neg holds, Course.result_of_not_holds holds, table.after_stopped]
    rfl

/-- **Drawing dice is following their course.** The draws that are kept for a roll are those of the
course, behind the ones drawn before. -/
theorem drawDice_eq (source : Source σ) (sides : Int) {remaining : Nat} :
    ∀ {sum : Int} {drawn : List Int} {table : Table σ} {course : Course σ},
      course = Course.dice source sides remaining sum table.source →
        drawDice source sides remaining sum drawn table =
          ((course.outcome.mapError Halt.reported).map fun total =>
              (total, drawn.reverse ++ course.draws.map Draw.value),
            table.after course) := by
  induction remaining with
  | zero =>
      rintro sum drawn table _ rfl
      simp [drawDice, Course.dice, Course.done, Table.after, Except.mapError, Except.map]
  | succ remaining ih =>
      rintro sum drawn table _ rfl
      rcases answer : source.request 1 sides table.source with ⟨fault | value, next⟩
      · rw [Course.dice_of_refused answer]
        simp [drawDice, drawDie, answer, Table.after, Except.mapError, Except.map, Halt.reported]
      · by_cases inside : Word.Holds (sum + value)
        · rw [Course.dice_of_answer answer inside]
          simp only [drawDice, drawDie, answer, checked, if_pos inside]
          rw [ih rfl]
          simp [Course.behind, Table.after]
        · rw [Course.dice_of_overflow answer inside]
          simp only [drawDice, drawDie, answer, checked, if_neg inside]
          simp [Course.behind, Course.stopped, Table.after, Except.mapError, Except.map,
            Halt.reported]

/-- What keeps a roll from its first draw is what stops its course there. -/
theorem course_roll_eq (source : Source σ) (rules : Rules) (count sides : Int) (state : σ) :
    Course.roll source rules count sides state =
      match rollFault? rules count sides with
      | some fault => Course.stopped (.invalid fault) state
      | none =>
        if rules.record then (Course.dice source sides count.toNat 0 state).recorded count sides
        else Course.dice source sides count.toNat 0 state := by
  have limited : Fault.exceeds count rules.maxDice = rules.maxDice.any (· < count) := by
    cases rules.maxDice <;> rfl
  unfold Course.roll rollFault?
  rw [limited]
  by_cases few : count < 1
  · rw [if_pos few, if_pos few]
  · rw [if_neg few, if_neg few]
    by_cases many : rules.maxDice.any (· < count)
    · rw [if_pos many, if_pos many]
    · rw [if_neg many, if_neg many]
      by_cases flat : sides < 1
      · rw [if_pos flat, if_pos flat]
      · rw [if_neg flat, if_neg flat]

theorem follows_roll (source : Source σ) (rules : Rules) (count sides : Int) :
    Play.Follows (roll source rules count sides) (Course.roll source rules count sides) := by
  intro table
  rw [course_roll_eq]
  simp only [Play.on, ExceptT.run, StateT.run, roll]
  cases rollFault? rules count sides with
  | some fault => exact congrArg (Prod.mk _) (table.after_stopped _).symm
  | none =>
      have rolls : (Course.dice source sides count.toNat 0 table.source).rolls = [] :=
        Course.rolls_dice
      simp only [drawDice_eq source sides rfl]
      cases ended : (Course.dice source sides count.toNat 0 table.source).outcome with
      | error halt =>
          by_cases record : rules.record <;>
            simp [record, Course.recorded, ended, Except.mapError, Except.map]
      | ok total =>
          by_cases record : rules.record <;>
            simp [record, Course.recorded, ended, Except.mapError, Except.map, Table.after, rolls]

/-- Evaluating a node whose operands are evaluated follows the course of its operation. -/
theorem follows_combine (source : Source σ) (rules : Rules) (operation : Operation)
    (first second : Int) :
    Play.Follows (combine source rules (.binary operation first second))
      (match operation with
        | .add => Course.result (first + second)
        | .subtract => Course.result (first - second)
        | .roll _ => Course.roll source rules first second) := by
  cases operation with
  | add => exact follows_checked (first + second)
  | subtract => exact follows_checked (first - second)
  | roll isImplicit => exact follows_roll source rules first second

theorem follows_recurse (source : Source σ) (rules : Rules) (tree : Expr) :
    Play.Follows (tree.recurse (combine source rules)) (tree.course source rules) := by
  induction tree with
  | literal value => exact .pure value
  | unary sign operand ih =>
      cases sign with
      | identity =>
          have same : (Expr.unary .identity operand).recurse (combine source rules) =
              operand.recurse (combine source rules) :=
            bind_pure _
          rw [same]
          exact ih
      | negate => exact .bind ih fun value => follows_checked (-value)
  | binary operation left right ihLeft ihRight =>
      exact .bind ihLeft fun first => .bind ihRight fun second =>
        follows_combine source rules operation first second

end Evaluation

/-- **Evaluating an expression is following its course.** -/
theorem Table.evaluate_eq (table : Table σ) (source : Source σ) (rules : Rules) (tree : Expr) :
    table.evaluate source rules tree =
      ((tree.course source rules table.source).outcome.mapError Halt.reported,
        table.after (tree.course source rules table.source)) := by
  rw [evaluate, Expr.evaluate, Expr.foldM_eq_recurse]
  exact Evaluation.follows_recurse source rules tree table

/-- An evaluation succeeds exactly when its course ends in a value, and leaves what the course
leaves. -/
theorem Table.evaluate_eq_ok_iff {table after : Table σ} {source : Source σ} {rules : Rules}
    {tree : Expr} {total : Int} :
    table.evaluate source rules tree = (.ok total, after) ↔
      (tree.course source rules table.source).outcome = .ok total ∧
        table.after (tree.course source rules table.source) = after := by
  rw [evaluate_eq, Prod.mk.injEq]
  cases (tree.course source rules table.source).outcome <;> simp [Except.mapError]

/-! ## Courses made of requests -/

/-- **What the courses of expressions are made of, down to requests.** Two courses of an expression
are related if two that end alike are, two that stop alike at a result or at a roll that must not
begin, two requests for the same number of sides, and related courses that are put together or
recorded alike. -/
theorem Expr.course_related_of_requests {τ : Type} (source : Source σ) (other : Source τ)
    (rules : Rules) (related : (σ → Course σ) → (τ → Course τ) → Prop)
    (done : ∀ value, related (Course.done value) (Course.done value))
    (overflow : ∀ value,
      related (Course.stopped (.overflow value)) (Course.stopped (.overflow value)))
    (invalid : ∀ {count sides fault}, Evaluation.rollFault? rules count sides = some fault →
      related (Course.stopped (.invalid fault)) (Course.stopped (.invalid fault)))
    (request : ∀ sides, related (Course.request source sides) (Course.request other sides))
    (andThen : ∀ {course : σ → Course σ} {course' : τ → Course τ} {next : Int → σ → Course σ}
      {next' : Int → τ → Course τ}, related course course' →
        (∀ value, related (next value) (next' value)) →
          related (fun state => (course state).andThen next) fun state =>
            (course' state).andThen next')
    (recorded : ∀ {course : σ → Course σ} {course' : τ → Course τ} (count sides : Int),
      related course course' → related (fun state => (course state).recorded count sides)
        fun state => (course' state).recorded count sides)
    (tree : Expr) : related (tree.course source rules) (tree.course other rules) := by
  have result (value : Int) : related (Course.result value) (Course.result value) := by
    by_cases holds : Word.Holds value
    · have ended {state : Type} : Course.result (σ := state) value = Course.done value :=
        funext (Course.result_of_holds holds)
      rw [ended, ended]
      exact done value
    · have ended {state : Type} :
          Course.result (σ := state) value = Course.stopped (.overflow value) :=
        funext (Course.result_of_not_holds holds)
      rw [ended, ended]
      exact overflow value
  have dice (sides : Int) (remaining : Nat) : ∀ sum, related
      (Course.dice source sides remaining sum) (Course.dice other sides remaining sum) := by
    induction remaining with
    | zero => exact done
    | succ remaining ih =>
        intro sum
        exact andThen (andThen (request sides) fun value => result (sum + value)) ih
  refine tree.course_related source other rules rules related done result ?_ andThen
  intro count sides
  have thrown := dice sides count.toNat 0
  have checked {state : Type} (source : Source state) :=
    funext (Evaluation.course_roll_eq source rules count sides)
  rw [checked, checked]
  cases broken : Evaluation.rollFault? rules count sides with
  | some fault => exact invalid broken
  | none =>
      cases rules.record with
      | true => exact recorded count sides thrown
      | false => exact thrown

/-! ## Sources that take notes -/

/-- A way to write down requests and draws, in which what comes later stands behind what was
there. -/
structure Course.Notes {ω : Type} (entries : List Int → List Draw → List ω) : Prop where
  nil : entries [] [] = []
  append : ∀ requests requests' draws draws', entries (requests ++ requests') (draws ++ draws') =
    entries requests draws ++ entries requests' draws'

namespace Course

variable {ω : Type} {entries : List Int → List Draw → List ω} {notes : List ω}

/-- A course with what is written down of it behind some notes. -/
def kept (entries : List Int → List Draw → List ω) (notes : List ω) (course : Course σ) :
    Course (σ × List ω) :=
  { course with source := (course.source, notes ++ entries course.requests course.draws) }

theorem kept_andThen (taken : Notes entries) {course : Course σ} {next : Int → σ → Course σ}
    {next' : Int → σ × List ω → Course (σ × List ω)}
    (same : ∀ value state notes,
      next' value (state, notes) = (next value state).kept entries notes) :
    (course.kept entries notes).andThen next' = (course.andThen next).kept entries notes := by
  unfold andThen
  cases ended : course.outcome with
  | error halt => simp [kept, ended]
  | ok value => simp [kept, ended, same, taken.append, List.append_assoc]

theorem kept_recorded (count sides : Int) (course : Course σ) :
    (course.kept entries notes).recorded count sides =
      (course.recorded count sides).kept entries notes := by
  unfold recorded
  cases ended : course.outcome <;> simp [kept, ended]

end Course

/-- **A source that writes down each of its requests writes down the course.** Whatever it writes
down of a request, it is otherwise left as the source that takes no notes. -/
theorem Expr.course_kept {ω : Type} {entries : List Int → List Draw → List ω}
    (taken : Course.Notes entries) (source : Source σ) (keeper : Source (σ × List ω))
    (request : ∀ sides state notes, Course.request keeper sides (state, notes) =
      (Course.request source sides state).kept entries notes)
    (rules : Rules) (tree : Expr) : ∀ (state : σ) (notes : List ω),
      tree.course keeper rules (state, notes) =
        (tree.course source rules state).kept entries notes := by
  refine tree.course_related_of_requests source keeper rules
    (fun course course' => ∀ state notes,
      course' (state, notes) = (course state).kept entries notes)
    ?_ ?_ ?_ request ?_ ?_
  · exact fun value state notes => by simp [Course.done, Course.kept, taken.nil]
  · exact fun value state notes => by simp [Course.stopped, Course.kept, taken.nil]
  · exact fun _ state notes => by simp [Course.stopped, Course.kept, taken.nil]
  · intro course course' next next' before after state notes
    beta_reduce
    rw [before, Course.kept_andThen taken after]
  · intro course course' count sides same state notes
    beta_reduce
    rw [same, Course.kept_recorded]

/-! ## The requests of a course -/

/-- A source that writes down the bounds of every request. -/
def Source.logged (source : Source σ) : Source (σ × List (Int × Int)) where
  request low high state :=
    let (answer, next) := source.request low high state.1
    (answer, next, state.2 ++ [(low, high)])

/-- A course with its requests written behind those of a log. -/
def Course.logged (log : List (Int × Int)) (course : Course σ) : Course (σ × List (Int × Int)) :=
  { course with source := (course.source, log ++ course.requests.map fun sides => (1, sides)) }

theorem Course.request_logged (source : Source σ) (sides : Int) (state : σ)
    (log : List (Int × Int)) :
    request source.logged sides (state, log) = (request source sides state).logged log := by
  unfold request Source.logged
  rcases answer : source.request 1 sides state with ⟨_ | _, _⟩ <;> simp [answer, logged]

/-- A source that writes down what it is asked has been asked the requests of the course. -/
theorem Expr.course_logged (source : Source σ) (rules : Rules) (tree : Expr) (state : σ)
    (log : List (Int × Int)) :
    tree.course source.logged rules (state, log) =
      (tree.course source rules state).logged log := by
  have taken : Course.Notes fun (requests : List Int) (_ : List Draw) =>
      requests.map fun sides => ((1 : Int), sides) :=
    ⟨rfl, fun _ _ _ _ => List.map_append⟩
  exact tree.course_kept taken source source.logged (Course.request_logged source) rules state log

/-! ## The main statement -/

/-- **Evaluating an expression is following its course.** The table is left as the course leaves it,
and the outcome is that of the course, as far as a message can tell it. A source that writes down
what it is asked has been asked the requests of the course and nothing else. The fault reported is
the one that says why the course stopped exactly when this can be told: when the course did not stop
at a result, a number of dice or a number of sides with too many digits to be written. -/
theorem evaluate_eq_course (source : Source σ) (rules : Rules) (tree : Expr) (table : Table σ)
    (log : List (Int × Int)) :
    let course := tree.course source rules table.source
    table.evaluate source rules tree =
        (course.outcome.mapError Halt.reported, table.after course) ∧
      (Table.evaluate ⟨(table.source, log), table.rolls, table.draws⟩ source.logged rules tree).2 =
          ⟨(course.source, log ++ course.requests.map fun sides => (1, sides)),
            (table.after course).rolls, (table.after course).draws⟩ ∧
        ((table.evaluate source rules tree).1 = course.outcome.mapError Halt.fault ↔
          ∀ halt, course.outcome = .error halt → halt.CanBeTold) := by
  intro course
  have followed := table.evaluate_eq source rules tree
  refine ⟨followed, ?_, ?_⟩
  · rw [Table.evaluate_eq, Expr.course_logged]
    rfl
  · rw [followed]
    change course.outcome.mapError Halt.reported = course.outcome.mapError Halt.fault ↔ _
    cases course.outcome with
    | ok total => simp [Except.mapError]
    | error halt => simpa [Except.mapError] using Halt.reported_eq_fault_iff

/-- A result with too many digits to be written can come up: the sum of a number of 4300 digits and
one is out of range, and another fault than the overflow is reported. -/
theorem evaluate_unwritable :
    ((Table.mk (Replay.mk [] 0) #[] #[]).evaluate Replay.source {}
        (.binary .add (.literal (10 ^ 4300 - 1)) (.literal 1))).1 =
      .error (.unwritable (.overflow (10 ^ 4300))) := by
  have sum : (10 : Int) ^ 4300 - 1 + 1 = 10 ^ 4300 := Int.sub_add_cancel _ _
  have long : (Fault.overflow (10 ^ 4300)).isWritable = false := by decide +kernel
  have outside : ¬ ((10 : Int) ^ 4300 ≤ Word.greatest) := by decide +kernel
  rw [Table.evaluate_eq]
  simp only [Expr.course, Course.andThen, Course.done, Course.result, sum]
  rw [if_neg fun inside => outside inside.2]
  simp only [Course.stopped, Except.mapError, Halt.reported, Fault.told_of_not_isWritable long]

end DiceNotation
