import DiceNotation.Proofs.Reading.Literals

/-!
# The rolls of a text and of its tree

Every roll of a tree that is read from a text is written with a die mark, the letter `d` or `D`
(`Expr.rollCount_eq`). Each mark is one token at most, because a text that cannot be split up to its
end has tokens for the first part alone (`TokenStream.countP_isDie_eventsFrom_le`). So the letters
of a text bound the number of rolls of its tree (`Expr.rollCount_le_of_parse`).
-/

set_option autoImplicit false

namespace DiceNotation

/-- The number of rolls that an operation is. -/
def Operation.rollCount : Operation → Nat
  | roll _ => 1
  | _ => 0

/-- The number of rolls in an expression. -/
def Expr.rollCount : Expr → Nat
  | literal _ => 0
  | unary _ operand => operand.rollCount
  | binary operation left right => left.rollCount + (right.rollCount + operation.rollCount)

/-- A character is a die mark. -/
def Text.isDieMark (c : Char) : Bool :=
  c == 'd' || c == 'D'

theorem Text.isDieMark_iff {c : Char} : isDieMark c = true ↔ Operator.ofChar? c = some .die := by
  unfold isDieMark Operator.ofChar?
  rw [Bool.or_eq_true, beq_iff_eq, beq_iff_eq]
  constructor
  · rintro (rfl | rfl) <;> rfl
  · split <;> simp_all

/-- The number of die marks in a text. -/
def Text.dieMarks (text : String) : Nat :=
  text.toList.countP isDieMark

/-- An event is the token of a die mark. -/
def Event.isDie : Event → Bool
  | .ok token => token.kind == .operator .die
  | .error _ => false

namespace TokenStream

/-- **A text has no more tokens for dice than die marks.** -/
theorem countP_isDie_eventsFrom_le (chars : List Char) : ∀ position : Nat,
    (eventsFrom position chars).countP Event.isDie ≤ chars.countP Text.isDieMark := by
  induction chars using text_induction with
  | nil =>
      intro position
      rw [events_nil]
      exact Nat.le_refl 0
  | blank c rest skipped ih =>
      intro position
      rw [events_blank skipped]
      exact (ih _).trans (by rw [List.countP_cons]; exact Nat.le_add_right ..)
  | run digits rest isRun ih =>
      intro position
      rw [events_run isRun, List.countP_append]
      cases number : Token.ofDigits position digits with
      | error fault => exact Nat.zero_le _
      | ok token =>
          have plain : Event.isDie (.ok token) = false := by
            rw [Event.isDie, Token.kind_ofDigits number]
            rfl
          simp only [List.countP_cons, plain]
          exact (ih _).trans (Nat.le_add_left ..)
  | operator c operator rest spelled ih =>
      intro position
      have same : Event.isDie (.ok (.operator position operator)) = Text.isDieMark c := by
        rw [Bool.eq_iff_iff, Text.isDieMark_iff, spelled]
        simp [Event.isDie, Token.operator]
      rw [events_operator spelled, List.countP_cons, List.countP_cons, same]
      exact Nat.add_le_add_right (ih _) _
  | stranger c rest stranger =>
      intro position
      rw [events_stranger stranger]
      exact Nat.zero_le _

end TokenStream

/-- The pieces of some tokens are tokens for dice only where the tokens are. -/
theorem countP_pieces_le (tokens : List Token) :
    (pieces tokens).count (.operator .die) ≤ (tokens.map Except.ok).countP Event.isDie := by
  induction tokens with
  | nil => exact Nat.le_refl 0
  | cons token rest ih =>
      rw [pieces, List.map_cons, List.countP_cons]
      cases found : token.piece? with
      | none => exact Nat.zero_le _
      | some piece =>
          have same : (piece == .operator .die) = Event.isDie (.ok token) := by
            unfold Token.piece? at found
            split at found <;> cases found <;> simp [Event.isDie, *]
          simp only [List.count_cons, same]
          exact Nat.add_le_add_right ih _

/-- Each roll of a normal tree is written with a die mark. -/
theorem Expr.Normal.rollCount_eq {tree : Expr} (normal : tree.Normal) :
    tree.rollCount = tree.pieces.count (.operator .die) := by
  induction normal using Operator.normal_induction with
  | literal value => rfl
  | before operator _ _ ih =>
      rw [operator.pieces_applyBefore, List.count_cons, ← ih]
      cases operator with
      | plus | minus => rfl
      | die => exact Nat.zero_add _
  | between operator _ _ _ ihLeft ihRight =>
      rw [operator.pieces_applyBetween, List.count_append, List.count_cons, ← ihLeft, ← ihRight]
      cases operator <;> simp [Operator.applyBetween, rollCount, Operation.rollCount]

/-- **A tree that is read from a text has no more rolls than the text has die marks.** -/
theorem Expr.rollCount_le_of_parse {text : String} {limit : DepthLimit} {tree : Expr}
    (read : Expr.parse text limit = .ok tree) : tree.rollCount ≤ Text.dieMarks text := by
  obtain ⟨written, normal⟩ := Expr.pieces_of_parse read
  have marks := TokenStream.countP_isDie_eventsFrom_le text.toList 0
  calc tree.rollCount
      = (DiceNotation.pieces (TokenStream.ofText text).tokens).count (.operator .die) := by
        rw [normal.rollCount_eq, written]
    _ ≤ ((TokenStream.ofText text).tokens.map Except.ok).countP Event.isDie := countP_pieces_le _
    _ ≤ (TokenStream.ofText text).events.countP Event.isDie := by
        rw [TokenStream.events, List.countP_append]
        exact Nat.le_add_right ..
    _ ≤ Text.dieMarks text := marks

end DiceNotation
