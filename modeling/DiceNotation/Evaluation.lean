import DiceNotation.Dice.Source
import DiceNotation.Expr.Fold
import DiceNotation.Word

/-!
# Evaluation

An evaluation computes the value of an expression on a table: the state of the source of random
numbers, the rolls finished so far, and every draw so far. Operands are evaluated from left to
right and a node after its operands, and the first fault ends the evaluation. The table is left as
it stands then.

Numbers are exact. A negation, a sum, a difference and every partial sum of a roll must be in the
range of a word; literals and the unary plus are taken as they are. A roll first checks its number
of dice against one, then against the limit, then its number of sides, all before the first draw. A
fault tells the number that is wrong; another fault takes its place where this number has too many
digits to be written.
A finished roll is recorded where the rules ask for it, and every draw is noted before the sum it
enters is checked.
-/

set_option autoImplicit false

namespace DiceNotation

/-- A finished roll, with its draws in order. -/
structure DieRoll where
  count : Int
  sides : Int
  draws : List Int
deriving DecidableEq

namespace DieRoll

/-- The sum of the draws. -/
def total (roll : DieRoll) : Int :=
  roll.draws.foldr (· + ·) 0

end DieRoll

/-- One number drawn for a die. -/
structure Draw where
  sides : Int
  value : Int
deriving DecidableEq

/-- What an evaluation obeys: whether finished rolls are recorded, and how many dice one roll may
have. -/
structure Rules where
  record : Bool := false
  maxDice : Option Int := none
deriving DecidableEq

/-- The state of an evaluation. -/
structure Table (σ : Type) where
  source : σ
  rolls : Array DieRoll := #[]
  draws : Array Draw := #[]

/-- A computation on a table that may fail. -/
abbrev Play (σ : Type) (α : Type) : Type :=
  ExceptT Fault (StateM (Table σ)) α

/-- The outcome of a computation and the table it leaves. -/
def Play.on {σ α : Type} (play : Play σ α) (table : Table σ) : Except Fault α × Table σ :=
  (ExceptT.run play).run table

namespace Evaluation

variable {σ : Type}

/-- A value that must be in range. -/
def checked (value : Int) : Except Fault Int :=
  if Word.Holds value then .ok value else .error (Fault.overflow value).told

/-- Draws one die and notes the draw. -/
def drawDie (source : Source σ) (sides : Int) (table : Table σ) :
    Except Fault Int × Table σ :=
  match source.request 1 sides table.source with
  | (.ok value, state) =>
    (.ok value, { table with source := state, draws := table.draws.push ⟨sides, value⟩ })
  | (.error fault, state) => (.error fault, { table with source := state })

/-- Draws dice one after the other onto a partial sum; `drawn` holds the draws so far, the last of
them first. -/
def drawDice (source : Source σ) (sides : Int) (remaining : Nat) (sum : Int) (drawn : List Int)
    (table : Table σ) : Except Fault (Int × List Int) × Table σ :=
  match remaining with
  | 0 => (.ok (sum, drawn.reverse), table)
  | remaining + 1 =>
    match drawDie source sides table with
    | (.error fault, table) => (.error fault, table)
    | (.ok value, table) =>
      match checked (sum + value) with
      | .error fault => (.error fault, table)
      | .ok sum => drawDice source sides remaining sum (value :: drawn) table

/-- What must hold before a roll draws its first die. -/
def rollFault? (rules : Rules) (count sides : Int) : Option Fault :=
  if count < 1 then some (.rollCount count none)
  else if Fault.exceeds count rules.maxDice then some (.rollCount count rules.maxDice)
  else if sides < 1 then some (.sideCount sides)
  else none

/-- Rolls `count` dice of `sides` sides. -/
def roll (source : Source σ) (rules : Rules) (count sides : Int) : Play σ Int :=
  fun table =>
    match rollFault? rules count sides with
    | some fault => (.error fault.told, table)
    | none =>
      match drawDice source sides count.toNat 0 [] table with
      | (.error fault, table) => (.error fault, table)
      | (.ok (sum, draws), table) =>
        if rules.record then
          (.ok sum, { table with rolls := table.rolls.push ⟨count, sides, draws⟩ })
        else (.ok sum, table)

/-- Evaluates a node whose operands are evaluated. -/
def combine (source : Source σ) (rules : Rules) : Layer Int → Play σ Int
  | .literal value => pure value
  | .unary .identity value => pure value
  | .unary .negate value => liftExcept (checked (-value))
  | .binary .add left right => liftExcept (checked (left + right))
  | .binary .subtract left right => liftExcept (checked (left - right))
  | .binary (.roll _) count sides => roll source rules count sides
where
  /-- A computation that leaves the table alone. -/
  liftExcept (outcome : Except Fault Int) : Play σ Int :=
    fun table => (outcome, table)

end Evaluation

/-- Evaluates an expression. -/
def Expr.evaluate {σ : Type} (source : Source σ) (rules : Rules) (tree : Expr) : Play σ Int :=
  tree.foldM (Evaluation.combine source rules)

/-- Evaluates an expression on a table: the total or the first fault, and the table left. -/
def Table.evaluate {σ : Type} (table : Table σ) (source : Source σ) (rules : Rules)
    (tree : Expr) : Except Fault Int × Table σ :=
  (tree.evaluate source rules).on table

end DiceNotation
