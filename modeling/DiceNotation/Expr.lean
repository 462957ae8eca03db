/-!
# Expressions

An expression is a whole number, a signed expression, or an operation on two expressions. A roll
is an operation: its left operand is the number of dice, its right operand the number of sides.
Where a notation leaves the number of dice out, as in `d6`, the roll is implicit: its left operand
is there, and takes part in the evaluation, but is not shown.

A layer is one node whose operands have been replaced by results. Every bottom-up computation on
expressions is a function of layers, and `Expr.recurse` is such a computation by recursion on the
tree; the operands of a node are computed from left to right, and the node after them.
-/

set_option autoImplicit false

universe u v

namespace DiceNotation

/-- The signs that may stand before an expression. -/
inductive Sign
  | identity
  | negate
deriving DecidableEq

/-- The operations on two expressions. -/
inductive Operation
  | add
  | subtract
  | roll (isImplicit : Bool)
deriving DecidableEq

/-- An expression. -/
inductive Expr
  | literal (value : Int)
  | unary (sign : Sign) (operand : Expr)
  | binary (operation : Operation) (left right : Expr)
deriving DecidableEq

/-- One node, with results in place of its operands. -/
inductive Layer (α : Type u) : Type u
  | literal (value : Int)
  | unary (sign : Sign) (operand : α)
  | binary (operation : Operation) (left right : α)

namespace Layer

/-- The results that a layer holds, from left to right. -/
def operands {α : Type u} : Layer α → List α
  | literal _ => []
  | unary _ operand => [operand]
  | binary _ left right => [left, right]

end Layer

namespace Expr

/-- The roll of one die that a notation writes without a count. -/
def die (sides : Expr) : Expr :=
  binary (.roll true) (literal 1) sides

/-- The root of an expression, with its operands as they are. -/
def layer : Expr → Layer Expr
  | literal value => .literal value
  | unary sign operand => .unary sign operand
  | binary operation left right => .binary operation left right

/-- The direct operands of an expression, from left to right. -/
def children (tree : Expr) : List Expr :=
  tree.layer.operands

/-- The number of nodes of an expression. -/
def size : Expr → Nat
  | literal _ => 1
  | unary _ operand => operand.size + 1
  | binary _ left right => left.size + right.size + 1

/-- A bottom-up computation, by recursion on the tree. -/
def recurse {α : Type u} {m : Type u → Type v} [Monad m] (combine : Layer α → m α) :
    Expr → m α
  | literal value => combine (.literal value)
  | unary sign operand => do
    let result ← recurse combine operand
    combine (.unary sign result)
  | binary operation left right => do
    let first ← recurse combine left
    let second ← recurse combine right
    combine (.binary operation first second)

end Expr

end DiceNotation
