import DiceNotation.Proofs.Answers.Printing
import DiceNotation.Proofs.Reading.Literals
import DiceNotation.Proofs.TokenStream.Numerals

/-!
# What a rendering tells

A rendering writes a literal as its numeral, and every other node in brackets: a mark, and then the
operands that are shown, each behind a blank (`Expr.form?`). Marks are shared. A plus stands before
the operand of a sign and before the two of a sum, a minus also starts a negative literal, and a die
stands before the sides of an implicit roll and before both operands of an explicit one. So a mark
does not tell the node, but the mark and the number of its operands do (`Expr.ofForm_form`).

The operands can be told apart because every rendering ends by itself: brackets close, and behind a
numeral there is a blank, a bracket or nothing. Hence a text that starts with a rendering tells
where it ends and which expression it shows (`Expr.shown_eq_of_append`). The induction is on the
expression, with arbitrary characters behind it, and inside it on the list of operands.

An implicit roll hides its count, so a rendering tells an expression up to hidden counts
(`Expr.shown`), and no better. There is a rendering only if all numbers can be written, that of a
hidden count included. In an expression that is read from a text they can be, and every hidden count
is one. Such an expression is told exactly, by its rendering and by each answer that shows it
(`rendering_tells_expression`).
-/

set_option autoImplicit false

namespace DiceNotation

namespace Expr

/-! ## The form of a rendering -/

/-- What a rendering shows of an expression: the count that an implicit roll hides is taken for
one. -/
def shown : Expr → Expr
  | literal value => literal value
  | unary sign operand => unary sign operand.shown
  | binary .add left right => binary .add left.shown right.shown
  | binary .subtract left right => binary .subtract left.shown right.shown
  | binary (.roll false) count sides => binary (.roll false) count.shown sides.shown
  | binary (.roll true) _ sides => die sides.shown

/-- The mark behind the opening bracket of a rendering, and the operands that follow it. A literal
has no brackets. -/
def form? : Expr → Option (Char × List Expr)
  | literal _ => none
  | unary .identity operand => some ('+', [operand])
  | unary .negate operand => some ('-', [operand])
  | binary .add left right => some ('+', [left, right])
  | binary .subtract left right => some ('-', [left, right])
  | binary (.roll false) count sides => some ('d', [count, sides])
  | binary (.roll true) _ sides => some ('d', [sides])

/-- The expression of a mark and its operands. -/
def ofForm : Char → List Expr → Option Expr
  | '+', [operand] => some (unary .identity operand)
  | '-', [operand] => some (unary .negate operand)
  | '+', [left, right] => some (binary .add left right)
  | '-', [left, right] => some (binary .subtract left right)
  | 'd', [count, sides] => some (binary (.roll false) count sides)
  | 'd', [sides] => some (die sides)
  | _, _ => none

variable {tree : Expr} {mark : Char} {operands : List Expr}

/-- An expression is a literal, or has a form whose operands lie below it. -/
@[elab_as_elim]
theorem form_induction {motive : Expr → Prop} (literal : ∀ value, motive (literal value))
    (node : ∀ {tree mark operands}, form? tree = some (mark, operands) →
      (∀ operand ∈ operands, motive operand) → motive tree) (tree : Expr) : motive tree := by
  induction tree with
  | literal value => exact literal value
  | unary sign operand ih =>
      have below := List.forall_mem_singleton.mpr ih
      cases sign with
      | identity => exact node rfl below
      | negate => exact node rfl below
  | binary operation left right ihLeft ihRight =>
      have right := List.forall_mem_singleton.mpr ihRight
      have both := List.forall_mem_cons.mpr ⟨ihLeft, right⟩
      cases operation with
      | add => exact node rfl both
      | subtract => exact node rfl both
      | roll isImplicit =>
          cases isImplicit with
          | false => exact node rfl both
          | true => exact node rfl right

/-- **The form tells what is shown of an expression.** -/
theorem ofForm_form (form : tree.form? = some (mark, operands)) :
    ofForm mark (operands.map shown) = some tree.shown := by
  unfold form? at form
  split at form <;> cases form <;> rfl

/-! ## The characters of a rendering -/

/-- Operands behind a mark: each behind a blank, and then the closing bracket and what is behind
it. -/
def closing (rest : List Char) : List Expr → List Char
  | [] => ')' :: rest
  | operand :: others => ' ' :: (operand.render.toList ++ closing rest others)

/-- **The rendering of a node** is its mark and its operands in brackets. -/
theorem toList_render_append (form : tree.form? = some (mark, operands)) (rest : List Char) :
    tree.render.toList ++ rest = '(' :: mark :: closing rest operands := by
  unfold form? at form
  split at form <;> cases form <;>
    simp [render_unary, render_binary, Layer.render, closing, toString]

theorem ends_closing (rest : List Char) (operands : List Expr) :
    Text.Ends (closing rest operands) := by
  cases operands <;>
  · rintro _ ⟨⟩
    rfl

/-- A literal does not start with a bracket. -/
theorem render_literal_ne (value : Int) (rest others : List Char) :
    (literal value).render.toList ++ rest ≠ '(' :: others := by
  rw [render_literal, Layer.render]
  intro same
  cases value with
  | ofNat value =>
      obtain ⟨c, digits, written, digit⟩ := Text.exists_head_toDigits value
      rw [Text.toList_toString_ofNat, written] at same
      cases same
      cases digit
  | negSucc value =>
      rw [Text.toList_toString_negSucc] at same
      cases same

/-! ## Telling expressions apart -/

/-- What a rendering of an expression starts a text with is the expression, as far as it is shown,
and what is behind it. -/
def Tells (tree : Expr) : Prop :=
  ∀ {other : Expr} {rest rest' : List Char}, Text.Ends rest → Text.Ends rest' →
    tree.render.toList ++ rest = other.render.toList ++ rest' →
      tree.shown = other.shown ∧ rest = rest'

/-- Operands that are told one by one are told together. -/
theorem shown_eq_of_closing {rest rest' : List Char} :
    ∀ {operands others : List Expr}, (∀ operand ∈ operands, operand.Tells) →
      closing rest operands = closing rest' others →
        operands.map shown = others.map shown ∧ rest = rest'
  | [], [], _, same => ⟨rfl, (List.cons.inj same).2⟩
  | [], _ :: _, _, same => absurd (List.cons.inj same).1 (by decide)
  | _ :: _, [], _, same => absurd (List.cons.inj same).1 (by decide)
  | operand :: operands, other :: others, tells, same => by
      obtain ⟨first, below⟩ := List.forall_mem_cons.mp tells
      obtain ⟨alike, behind⟩ :=
        first (ends_closing rest operands) (ends_closing rest' others) (List.cons.inj same).2
      obtain ⟨allAlike, end'⟩ := shown_eq_of_closing below behind
      exact ⟨by rw [List.map_cons, List.map_cons, alike, allAlike], end'⟩

/-- **A text that starts with a rendering tells which expression it shows and where it ends.** -/
theorem shown_eq_of_append (tree : Expr) : tree.Tells := by
  induction tree using form_induction with
  | literal value =>
      intro other rest rest' ends ends' same
      cases other using form_induction with
      | literal value' =>
          rw [render_literal, render_literal, Layer.render, Layer.render] at same
          obtain ⟨rfl, behind⟩ := Text.toString_append_inj ends ends' same
          exact ⟨rfl, behind⟩
      | node form _ =>
          rw [toList_render_append form] at same
          exact absurd same (render_literal_ne value _ _)
  | @node tree mark operands form ih =>
      intro other rest rest' ends ends' same
      rw [toList_render_append form] at same
      cases other using form_induction with
      | literal value => exact absurd same.symm (render_literal_ne value _ _)
      | @node other mark' others form' _ =>
          rw [toList_render_append form'] at same
          obtain ⟨rfl, behind⟩ := List.cons.inj (List.cons.inj same).2
          obtain ⟨alike, end'⟩ := shown_eq_of_closing ih behind
          have whole : some tree.shown = some other.shown := by
            rw [← ofForm_form form, alike, ofForm_form form']
          exact ⟨Option.some.inj whole, end'⟩

/-- A hidden count is not rendered. -/
theorem render_shown (tree : Expr) : tree.shown.render = tree.render := by
  induction tree with
  | literal value => rfl
  | unary sign operand ih => rw [shown, render_unary, ih, render_unary]
  | binary operation left right ihLeft ihRight =>
      match operation with
      | .add | .subtract | .roll false =>
          rw [shown, render_binary, ihLeft, ihRight, render_binary]
      | .roll true =>
          rw [shown, die, render_binary, ihRight, render_binary]
          rfl

/-- **Renderings are the same exactly when what they show is.** -/
theorem render_eq_iff {first second : Expr} :
    first.render = second.render ↔ first.shown = second.shown := by
  constructor
  · intro same
    refine (first.shown_eq_of_append Text.ends_nil Text.ends_nil ?_).1
    rw [same]
  · intro alike
    rw [← render_shown first, alike, render_shown]

/-- If two expressions have renderings, these are the same exactly when what they show is. -/
theorem render?_eq_iff {first second : Expr} (writable : first.isWritable = true)
    (writable' : second.isWritable = true) :
    first.render? = second.render? ↔ first.shown = second.shown := by
  rw [render?_eq, render?_eq, if_pos writable, if_pos writable', Option.some.injEq, render_eq_iff]

theorem render?_eq_none_iff : tree.render? = none ↔ tree.isWritable = false := by
  rw [render?_eq]
  cases tree.isWritable <;> simp

/-- Numbers in the range of a word can be written. -/
theorem LiteralsHold.isWritable (literals : tree.LiteralsHold) : tree.isWritable = true := by
  induction tree with
  | literal value => exact Text.isWritable_of_holds literals
  | unary sign operand ih => exact ih literals
  | binary operation left right ihLeft ihRight =>
      rw [Expr.isWritable, ihLeft literals.1, ihRight literals.2, Bool.and_self]

/-- **An expression that is read from a text has a rendering.** -/
theorem render?_of_parse {text : String} {limit : DepthLimit}
    (read : Expr.parse text limit = .ok tree) : tree.render? = some tree.render := by
  rw [render?_eq, if_pos (literalsHold_of_parse read).isWritable]

/-- A normal tree hides no other count than one. -/
theorem Normal.shown_eq (normal : tree.Normal) : tree.shown = tree := by
  induction normal using Operator.normal_induction with
  | literal value => rfl
  | before operator _ _ ih =>
      cases operator <;> simp only [Operator.applyBefore, Expr.die, shown, ih]
  | between operator _ _ _ ihLeft ihRight =>
      cases operator <;> simp only [Operator.applyBetween, shown, ihLeft, ihRight]

end Expr

/-! ## Answers that show an expression -/

/-- An answer shows an expression that has been read from a text: as the answer of the reading, or
as one of a detailed roll, whatever source it is rolled with. -/
inductive Answer.Shows : Json → Expr → Prop
  | parse {text : String} {limit : DepthLimit} {tree : Expr} :
      Expr.parse text limit = .ok tree → Shows (Answer.ofParse text (Expr.parse text limit)) tree
  | roll {σ : Type} {source : Source σ} {state : σ} {limits : Limits} {text : String}
      {result : RollResult} :
      (rollDetailed source state limits text).outcome = .ok result →
        Shows (Answer.ofRoll true (rollDetailed source state limits text).outcome) result.tree

/-- What is shown is rendered, and has been read from a text. -/
theorem Answer.Shows.rendered {answer : Json} {tree : Expr} (shows' : Answer.Shows answer tree) :
    answer.member? "tree" = some (.text tree.render) ∧
      ∃ text limit, Expr.parse text limit = .ok tree := by
  cases shows' with
  | parse read =>
      rw [read]
      exact ⟨rfl, _, _, read⟩
  | @roll σ source state limits text result ended =>
      obtain ⟨read, -⟩ := rollDetailed_eq_ok_iff.mp
        (show rollDetailed source state limits text = ⟨.ok result, _⟩ by rw [← ended])
      rw [ended]
      exact ⟨rfl, _, _, read⟩

/-! ## The main statement -/

/-- **A rendering tells the expression.** An expression has a rendering exactly if all of its
numbers can be written. If two expressions have one, these are the same exactly when the expressions
are the same up to the counts that implicit rolls hide. Expressions that are read from texts have
renderings, and have the same only if they are the same. So two answers that show the same
rendering, as a member or on a line, show the same expression. -/
theorem rendering_tells_expression (tree tree' : Expr) :
    (tree.render? = none ↔ tree.isWritable = false) ∧
    (tree.isWritable = true → tree'.isWritable = true →
      (tree.render? = tree'.render? ↔ tree.shown = tree'.shown)) ∧
    (∀ (text text' : String) (limit limit' : DepthLimit),
      Expr.parse text limit = .ok tree → Expr.parse text' limit' = .ok tree' →
        tree.render?.isSome ∧ (tree.render? = tree'.render? ↔ tree = tree')) ∧
    ∀ answer answer' : Json, Answer.Shows answer tree → Answer.Shows answer' tree' →
      answer.member? "tree" = tree.render?.map Json.text ∧
      (answer.member? "tree" = answer'.member? "tree" ↔ tree = tree') ∧
      (Answer.treeLines answer = Answer.treeLines answer' ↔ tree = tree') := by
  have read {text text' : String} {limit limit' : DepthLimit}
      (first : Expr.parse text limit = .ok tree) (second : Expr.parse text' limit' = .ok tree') :
      tree.render = tree'.render ↔ tree = tree' := by
    rw [Expr.render_eq_iff, (Expr.pieces_of_parse first).2.shown_eq,
      (Expr.pieces_of_parse second).2.shown_eq]
  refine ⟨Expr.render?_eq_none_iff, Expr.render?_eq_iff, ?_, ?_⟩
  · intro text text' limit limit' first second
    rw [Expr.render?_of_parse first, Expr.render?_of_parse second, Option.some.injEq]
    exact ⟨rfl, read first second⟩
  · intro answer answer' shows' shows''
    obtain ⟨member, text, limit, first⟩ := shows'.rendered
    obtain ⟨member', text', limit', second⟩ := shows''.rendered
    have line : Answer.treeLines answer = ["tree: " ++ tree.render] := by
      rw [Answer.treeLines, member]
    have line' : Answer.treeLines answer' = ["tree: " ++ tree'.render] := by
      rw [Answer.treeLines, member']
    refine ⟨?_, ?_, ?_⟩
    · rw [member, Expr.render?_of_parse first, Option.map_some]
    · rw [member, member', Option.some.injEq, Json.text.injEq, read first second]
    · rw [line, line', List.singleton_inj, String.append_right_inj, read first second]

/-- An implicit roll and a roll of one die are told apart, and so are a negative literal, which no
text has, and a signed one. Two implicit rolls with other counts than one are not. -/
theorem rendering_tells_rolls_of_one_die :
    let implicit := Expr.die (.literal 6)
    let explicit := Expr.binary (.roll false) (.literal 1) (.literal 6)
    Expr.parse "d6" = .ok implicit ∧ Expr.parse "1D 6" = .ok explicit ∧
      (implicit.render? = explicit.render? ↔ implicit = explicit) ∧
      ((Answer.ofParse "d6" (Expr.parse "d6")).member? "tree" =
          (Answer.ofParse "1D 6" (Expr.parse "1D 6")).member? "tree" ↔ implicit = explicit) ∧
      (Expr.literal (-3)).render? ≠ (Expr.unary .negate (.literal 3)).render? ∧
      (Expr.binary (.roll true) (.literal 2) (.literal 6)).render? =
        (Expr.binary (.roll true) (.literal 3) (.literal 6)).render? := by
  intro implicit explicit
  obtain ⟨-, -, texts, answers⟩ := rendering_tells_expression implicit explicit
  obtain ⟨-, signs, -⟩ :=
    rendering_tells_expression (.literal (-3)) (.unary .negate (.literal 3))
  obtain ⟨-, counts, -⟩ := rendering_tells_expression
    (.binary (.roll true) (.literal 2) (.literal 6)) (.binary (.roll true) (.literal 3) (.literal 6))
  have first : Expr.parse "d6" = .ok implicit := by cbv
  have second : Expr.parse "1D 6" = .ok explicit := by cbv
  refine ⟨first, second, (texts _ _ _ _ first second).2,
    (answers _ _ (.parse first) (.parse second)).2.1, ?_,
    (counts (by decide +kernel) (by decide +kernel)).mpr rfl⟩
  rw [Ne, signs (by decide +kernel) (by decide +kernel)]
  exact Expr.noConfusion

/-- Two literals that are too long to be written have no renderings, so that nothing tells them
apart. -/
theorem rendering_of_unwritable_literals :
    (Expr.literal (10 ^ 5000)).render? = none ∧ (Expr.literal (10 ^ 5000 + 1)).render? = none ∧
      (Expr.literal (10 ^ 5000)).shown ≠ (Expr.literal (10 ^ 5000 + 1)).shown := by
  refine ⟨Expr.render?_eq_none_iff.mpr ?_, Expr.render?_eq_none_iff.mpr ?_, ?_⟩
  · decide +kernel
  · decide +kernel
  · intro same
    have equal : (10 : Int) ^ 5000 = 10 ^ 5000 + 1 := Expr.literal.inj same
    omega

end DiceNotation
