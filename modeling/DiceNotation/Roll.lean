import DiceNotation.Evaluation
import DiceNotation.Expr.Reader
import DiceNotation.Expr.Render
import DiceNotation.Json

/-!
# Rolling a notation

A notation is read as an expression and the expression is evaluated; the first fault of either
ends the roll, and a notation that cannot be read draws nothing. A detailed roll also keeps the
expression and the finished rolls, innermost first.

A session evaluates one expression after the other on one table, so that its rolls accumulate over
successes and failures, while its rules and its source may change in between.
-/

set_option autoImplicit false

namespace DiceNotation

/-- The limits of a roll. -/
structure Limits where
  maxDice : Option Int := none
  maxDepth : DepthLimit := .standard

/-- A detailed roll. -/
structure RollResult where
  text : String
  total : Int
  tree : Expr
  rolls : List DieRoll
deriving DecidableEq

/-- Everything that a roll leaves behind: its outcome, the table, and with the table the draws and
the state of the source. -/
structure Rolled (σ : Type) (α : Type) where
  outcome : Except Fault α
  table : Table σ

/-- Reads a notation and evaluates it on a fresh table. -/
def play {σ : Type} (source : Source σ) (state : σ) (rules : Rules) (maxDepth : DepthLimit)
    (text : String) : Rolled σ (Expr × Int) :=
  let table : Table σ := { source := state }
  match Expr.parse text maxDepth with
  | .error fault => ⟨.error fault, table⟩
  | .ok tree =>
    match table.evaluate source rules tree with
    | (.error fault, table) => ⟨.error fault, table⟩
    | (.ok total, table) => ⟨.ok (tree, total), table⟩

/-- Rolls a notation for its total. -/
def roll {σ : Type} (source : Source σ) (state : σ) (limits : Limits) (text : String) :
    Rolled σ Int :=
  let rolled := play source state ⟨false, limits.maxDice⟩ limits.maxDepth text
  ⟨rolled.outcome.map Prod.snd, rolled.table⟩

/-- Rolls a notation in detail. -/
def rollDetailed {σ : Type} (source : Source σ) (state : σ) (limits : Limits) (text : String) :
    Rolled σ RollResult :=
  let rolled := play source state ⟨true, limits.maxDice⟩ limits.maxDepth text
  let result := fun ((tree, total) : Expr × Int) =>
    { text, total, tree, rolls := rolled.table.rolls.toList : RollResult }
  ⟨rolled.outcome.map result, rolled.table⟩

section

variable {σ : Type} {source : Source σ} {state : σ} {limits : Limits} {text : String}
  {after : Table σ}

/-- A notation is played to its end if it is read and the expression is evaluated. -/
theorem play_eq_ok_iff {rules : Rules} {maxDepth : DepthLimit} {tree : Expr} {total : Int} :
    play source state rules maxDepth text = ⟨.ok (tree, total), after⟩ ↔
      Expr.parse text maxDepth = .ok tree ∧
        (Table.mk state #[] #[]).evaluate source rules tree = (.ok total, after) := by
  unfold play
  cases Expr.parse text maxDepth with
  | error fault => simp
  | ok read =>
    rcases evaluated : (Table.mk state #[] #[]).evaluate source rules read with
      ⟨fault | value, left⟩
    · simp only [evaluated, Rolled.mk.injEq, reduceCtorEq, false_and, Except.ok.injEq, false_iff]
      rintro ⟨rfl, ended⟩
      rw [evaluated] at ended
      cases ended
    · simp only [evaluated, Rolled.mk.injEq, Except.ok.injEq, Prod.mk.injEq]
      constructor
      · rintro ⟨⟨rfl, rfl⟩, rfl⟩
        exact ⟨rfl, evaluated⟩
      · rintro ⟨rfl, ended⟩
        rw [evaluated] at ended
        cases ended
        exact ⟨⟨rfl, rfl⟩, rfl⟩

theorem roll_eq_ok_iff {total : Int} :
    roll source state limits text = ⟨.ok total, after⟩ ↔
      ∃ tree, Expr.parse text limits.maxDepth = .ok tree ∧
        (Table.mk state #[] #[]).evaluate source ⟨false, limits.maxDice⟩ tree =
          (.ok total, after) := by
  simp only [← play_eq_ok_iff, roll]
  rcases play source state ⟨false, limits.maxDice⟩ limits.maxDepth text with
    ⟨fault | ⟨tree, value⟩, left⟩ <;> simp [Except.map]

theorem rollDetailed_eq_ok_iff {result : RollResult} :
    rollDetailed source state limits text = ⟨.ok result, after⟩ ↔
      Expr.parse text limits.maxDepth = .ok result.tree ∧
        (Table.mk state #[] #[]).evaluate source ⟨true, limits.maxDice⟩ result.tree =
          (.ok result.total, after) ∧
        result.text = text ∧ result.rolls = after.rolls.toList := by
  rw [← and_assoc, ← play_eq_ok_iff, rollDetailed]
  obtain ⟨name, total, tree, rolls⟩ := result
  rcases play source state ⟨true, limits.maxDice⟩ limits.maxDepth text with
    ⟨fault | ⟨read, value⟩, left⟩
  · simp [Except.map]
  · simp only [Except.map, Rolled.mk.injEq, Except.ok.injEq, RollResult.mk.injEq, Prod.mk.injEq]
    constructor
    · rintro ⟨⟨rfl, rfl, rfl, rfl⟩, rfl⟩
      exact ⟨⟨⟨rfl, rfl⟩, rfl⟩, rfl, rfl⟩
    · rintro ⟨⟨⟨rfl, rfl⟩, rfl⟩, rfl, rfl⟩
      exact ⟨⟨rfl, rfl, rfl, rfl⟩, rfl⟩

end

/-- A finished roll as data. -/
def DieRoll.toJson (roll : DieRoll) : Json :=
  .object [("count", .integer roll.count), ("sides", .integer roll.sides),
    ("draws", .list (roll.draws.map Json.integer))]

/-- A detailed roll as the members of an object. -/
def RollResult.members (result : RollResult) : List (String × Json) :=
  [("notation", .text result.text), ("total", .integer result.total),
    ("tree", .text result.tree.render), ("rolls", .list (result.rolls.map DieRoll.toJson))]

/-- A sequence of evaluations on one table. -/
structure Session (σ : Type) where
  source : Source σ
  rules : Rules
  table : Table σ

namespace Session

/-- Evaluates an expression in a session. -/
def evaluate {σ : Type} (session : Session σ) (tree : Expr) :
    Except Fault Int × Session σ :=
  let (outcome, table) := session.table.evaluate session.source session.rules tree
  (outcome, { session with table })

end Session

end DiceNotation
