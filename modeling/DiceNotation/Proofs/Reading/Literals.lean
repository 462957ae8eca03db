import DiceNotation.Proofs.Reading.Locality
import DiceNotation.Proofs.Reading.NormalForm

/-!
# The numbers of a text and of its tree

A number written in a text is never above the greatest word: a run of digits that is would be a
fault (`TokenStream.value_of_ofText`). A tree that is read holds the numbers that are written, and
the count one of every roll that is written without a count, and no others. So the literals of a
tree that is read from a text are in the range of a word (`Expr.literalsHold_of_parse`).
-/

set_option autoImplicit false

namespace DiceNotation

/-! ## The numbers of a text -/

/-- Digits that continue a number in range make a number in range, if they make one. -/
theorem literalValue?_le {digits : List Char} : ∀ {value result : Nat},
    (value : Int) ≤ Word.greatest → literalValue? value digits = some result →
      (result : Int) ≤ Word.greatest := by
  induction digits with
  | nil =>
      intro value result small same
      cases same
      exact small
  | cons digit rest ih =>
      intro value result small same
      simp only [literalValue?] at same
      split at same
      · cases same
      · rename_i inside
        exact ih (by simpa using inside) same

/-- The number of a run of digits is in range. -/
theorem Token.value_ofDigits {position : Nat} {digits : List Char} {token : Token}
    (number : Token.ofDigits position digits = .ok token) :
    ∀ value ∈ token.value, 0 ≤ value ∧ value ≤ Word.greatest := by
  unfold Token.ofDigits at number
  split at number
  · cases number
  · split at number
    · rename_i value same
      cases number
      rintro _ ⟨⟩
      exact ⟨Int.natCast_nonneg value, literalValue?_le (by decide) same⟩
    · cases number

namespace TokenStream

/-- A number that is met in a text is in range. -/
theorem value_of_eventsFrom (chars : List Char) : ∀ (position : Nat) (token : Token),
    Except.ok token ∈ eventsFrom position chars →
      ∀ value ∈ token.value, 0 ≤ value ∧ value ≤ Word.greatest := by
  induction chars using text_induction with
  | nil =>
      intro position token met
      rw [events_nil, List.mem_singleton] at met
      cases met
      exact fun _ impossible => (nomatch impossible)
  | blank c rest skipped ih =>
      intro position token met
      rw [events_blank skipped] at met
      exact ih _ token met
  | run digits rest isRun ih =>
      intro position token met
      rw [events_run isRun] at met
      cases number : Token.ofDigits position digits with
      | error fault => simp [number] at met
      | ok first =>
          simp only [number, List.mem_cons, Except.ok.injEq] at met
          rcases met with rfl | later
          · exact Token.value_ofDigits number
          · exact ih _ token later
  | operator c operator rest spelled ih =>
      intro position token met
      rw [events_operator spelled, List.mem_cons] at met
      rcases met with same | later
      · cases same
        exact fun _ impossible => (nomatch impossible)
      · exact ih _ token later
  | stranger c rest stranger =>
      intro position token met
      rw [events_stranger stranger, List.mem_singleton] at met
      cases met

/-- **The numbers of a text are in range.** -/
theorem value_of_ofText {text : String} {token : Token} (member : token ∈ (ofText text).tokens) :
    ∀ value ∈ token.value, 0 ≤ value ∧ value ≤ Word.greatest := by
  have met : Except.ok token ∈ (ofText text).events :=
    List.mem_append_left _ (List.mem_map_of_mem member)
  exact value_of_eventsFrom text.toList 0 token met

/-- A stream that is read as a tree is so read whatever lies behind its tokens. -/
theorem outcome_of_ok {stream : TokenStream} {limit : DepthLimit} {tree : Expr}
    (ended : (stream.read limit).outcome = .ok tree) :
    ((mk stream.tokens none).read limit).outcome = .ok tree := by
  obtain ⟨tokens, behind⟩ := stream
  rcases read_cases limit tokens with
    ⟨before, token, after, outcome, rfl, _, decides⟩ | ⟨_, lexical, _⟩
  · rw [decides] at ended ⊢
    exact ended
  · cases behind with
    | none => exact ended
    | some fault =>
        rw [lexical] at ended
        cases ended

end TokenStream

theorem exists_token_of_number {tokens : List Token} {value : Int}
    (member : Piece.number (some value) ∈ pieces tokens) :
    ∃ token ∈ tokens, token.value = some value := by
  induction tokens with
  | nil => cases member
  | cons token rest ih =>
      rw [pieces] at member
      cases found : token.piece? with
      | none => simp [found] at member
      | some piece =>
          simp only [found, List.mem_cons] at member
          rcases member with rfl | later
          · refine ⟨token, List.mem_cons_self .., ?_⟩
            unfold Token.piece? at found
            split at found
            · simpa using found
            · cases found
            · cases found
          · obtain ⟨other, inside, valued⟩ := ih later
            exact ⟨other, List.mem_cons_of_mem _ inside, valued⟩

/-! ## The literals of a tree -/

namespace Expr

/-- Every literal of an expression is in the range of a word. -/
def LiteralsHold : Expr → Prop
  | literal value => Word.Holds value
  | unary _ operand => operand.LiteralsHold
  | binary _ left right => left.LiteralsHold ∧ right.LiteralsHold

theorem literalsHold_applyBefore {operator : Operator} {operand : Expr}
    (below : operand.LiteralsHold) : (operator.applyBefore operand).LiteralsHold := by
  have one : Word.Holds 1 := by decide
  cases operator with
  | plus | minus => exact below
  | die => exact ⟨one, below⟩

theorem literalsHold_applyBetween {operator : Operator} {left right : Expr}
    (first : left.LiteralsHold) (second : right.LiteralsHold) :
    (operator.applyBetween left right).LiteralsHold := by
  cases operator <;> exact ⟨first, second⟩

/-- The literals of a normal tree are the numbers it is written with, and the counts that are not
written. -/
theorem Normal.literalsHold {tree : Expr} (normal : tree.Normal)
    (written : ∀ value, .number (some value) ∈ tree.pieces → Word.Holds value) :
    tree.LiteralsHold := by
  induction normal using Operator.normal_induction with
  | literal value => exact written value (List.mem_singleton_self _)
  | before operator _ _ ih =>
      rw [operator.pieces_applyBefore] at written
      exact literalsHold_applyBefore (ih fun value member =>
        written value (List.mem_cons_of_mem _ member))
  | between operator _ _ _ ihLeft ihRight =>
      rw [operator.pieces_applyBetween] at written
      refine literalsHold_applyBetween (ihLeft fun value member => ?_)
        (ihRight fun value member => ?_)
      · exact written value (List.mem_append_left _ member)
      · exact written value (List.mem_append_right _ (List.mem_cons_of_mem _ member))

/-- A tree that is read from a text is written as the pieces of the text, is normal, and needs no
more levels than the limit has. -/
theorem sound_of_parse {text : String} {limit : DepthLimit} {tree : Expr}
    (ended : Expr.parse text limit = .ok tree) :
    tree.pieces = DiceNotation.pieces (TokenStream.ofText text).tokens ∧ tree.Normal ∧
      tree.need ≤ limit.levels := by
  obtain ⟨last, reads, whole⟩ := Reader.run_outcome_eq_ok_iff.mp (TokenStream.outcome_of_ok ended)
  exact reads.sound whole

/-- A tree that is read from a text is normal, and is written as the pieces of the text. -/
theorem pieces_of_parse {text : String} {limit : DepthLimit} {tree : Expr}
    (ended : Expr.parse text limit = .ok tree) :
    tree.pieces = DiceNotation.pieces (TokenStream.ofText text).tokens ∧ tree.Normal := by
  obtain ⟨written, normal, _⟩ := sound_of_parse ended
  exact ⟨written, normal⟩

/-- **The literals of a tree that is read from a text are in range.** -/
theorem literalsHold_of_parse {text : String} {limit : DepthLimit} {tree : Expr}
    (ended : Expr.parse text limit = .ok tree) : tree.LiteralsHold := by
  obtain ⟨written, normal⟩ := pieces_of_parse ended
  refine normal.literalsHold fun value member => ?_
  rw [written] at member
  obtain ⟨token, inside, valued⟩ := exists_token_of_number member
  obtain ⟨low, high⟩ := TokenStream.value_of_ofText inside value valued
  exact ⟨Int.le_trans (by decide) low, high⟩

end Expr

end DiceNotation
