import DiceNotation.Expr.Fold
import DiceNotation.Text.Numeral

/-!
# Written forms of an expression

The rendering of an expression is a fully bracketed form that puts every operator before its
operands, as in `(+ (d 3 6) 10)`. The count of an implicit roll is rendered, but not shown.

The numbers of an expression can be too long to be written, and then there is no rendering. The
numbers of an expression that was read from a text are not.
-/

set_option autoImplicit false

namespace DiceNotation

/-- The rendering of a node whose operands are rendered. -/
def Layer.render : Layer String → String
  | literal value => toString value
  | unary .identity operand => s!"(+ {operand})"
  | unary .negate operand => s!"(- {operand})"
  | binary .add left right => s!"(+ {left} {right})"
  | binary .subtract left right => s!"(- {left} {right})"
  | binary (.roll true) _ right => s!"(d {right})"
  | binary (.roll false) left right => s!"(d {left} {right})"

/-- Whether a node can be written: a number must not be too long. -/
def Layer.isWritable {α : Type} : Layer α → Bool
  | literal value => Text.isWritable value
  | unary _ _ => true
  | binary _ _ _ => true

/-- The rendering of a node whose operands are rendered, if it can be written. -/
def Layer.render? (layer : Layer String) : Option String :=
  if layer.isWritable then some layer.render else none

/-- The height of a node whose operands have the given heights. -/
def Layer.height : Layer Nat → Nat
  | literal _ => 1
  | unary _ operand => operand + 1
  | binary _ left right => max left right + 1

namespace Expr

/-- The bracketed form of an expression, if all of its numbers can be written. -/
def render? (tree : Expr) : Option String :=
  tree.foldM Layer.render?

/-- The bracketed form of an expression, however long its numbers are. -/
def render (tree : Expr) : String :=
  tree.fold Layer.render

/-- Whether all numbers of an expression can be written, those of hidden counts included. -/
def isWritable : Expr → Bool
  | literal value => Text.isWritable value
  | unary _ operand => operand.isWritable
  | binary _ left right => left.isWritable && right.isWritable

/-- The height of an expression; a literal has height one. -/
def height (tree : Expr) : Nat :=
  tree.fold Layer.height

theorem render_literal (value : Int) :
    (literal value).render = (Layer.literal value).render :=
  fold_literal ..

theorem render_unary (sign : Sign) (operand : Expr) :
    (unary sign operand).render = (Layer.unary sign operand.render).render :=
  fold_unary ..

theorem render_binary (operation : Operation) (left right : Expr) :
    (binary operation left right).render =
      (Layer.binary operation left.render right.render).render :=
  fold_binary ..

theorem height_literal (value : Int) : (literal value).height = 1 :=
  fold_literal ..

theorem height_unary (sign : Sign) (operand : Expr) :
    (unary sign operand).height = operand.height + 1 :=
  fold_unary ..

theorem height_binary (operation : Operation) (left right : Expr) :
    (binary operation left right).height = max left.height right.height + 1 :=
  fold_binary ..

/-- **An expression has a rendering exactly if all of its numbers can be written.** -/
theorem render?_eq (tree : Expr) :
    tree.render? = if tree.isWritable then some tree.render else none := by
  rw [render?, foldM_eq_recurse]
  induction tree with
  | literal value => rw [recurse, Layer.render?, Layer.isWritable, isWritable, render_literal]
  | unary sign operand ih =>
      rw [recurse, ih, isWritable, render_unary]
      by_cases short : operand.isWritable
      · rw [if_pos short, if_pos short]
        rfl
      · rw [if_neg short, if_neg short]
        rfl
  | binary operation left right ihLeft ihRight =>
      rw [recurse, ihLeft, ihRight, isWritable, render_binary]
      by_cases first : left.isWritable
      · by_cases second : right.isWritable
        · simp only [first, second, if_true, Bool.and_self]
          rfl
        · simp only [first, second, if_true, if_false, Bool.and_false, Bool.false_eq_true]
          rfl
      · simp only [first, Bool.false_and, Bool.false_eq_true, if_false]
        rfl

end Expr

end DiceNotation
