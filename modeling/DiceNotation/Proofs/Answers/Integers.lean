import DiceNotation.Proofs.Evaluation.Recording
import DiceNotation.Proofs.TokenStream.Events
import DiceNotation.Proofs.TokenStream.Numerals

/-!
# Rolling a written integer

An integer is written with its decimal digits, and with a minus in front if it is below zero. The
minus is an operator of the notation, so what is read is a literal or the negation of one
(`Expr.ofInt`), and it is the literal that must be in range. A literal goes up to `Word.greatest`,
whatever stands before it. So the least number in range is the only one that has a value and cannot
be written: `Word.least` has no literal for its opposite.

The main statement is `roll_of_written_integer`. It holds of integers of any size, and nothing is
assumed of the source, because nothing is asked of it.
-/

set_option autoImplicit false

namespace DiceNotation

/-- The expression that an integer is written as. -/
def Expr.ofInt : Int → Expr
  | .ofNat value => literal value
  | .negSucc below => unary .negate (literal (below + 1 : Nat))

/-- An integer and its opposite are in range. -/
def Word.HoldsBoth (value : Int) : Prop :=
  -greatest ≤ value ∧ value ≤ greatest

instance (value : Int) : Decidable (Word.HoldsBoth value) :=
  inferInstanceAs (Decidable (_ ∧ _))

theorem Word.HoldsBoth.holds {value : Int} (both : HoldsBoth value) : Holds value :=
  ⟨by have := least_eq; have := both.1; omega, both.2⟩

/-! ## Splitting -/

namespace TokenStream

/-- A numeral is one number, or is too large. -/
theorem events_toDigits (position value : Nat) :
    eventsFrom position (Nat.toDigits 10 value) =
      if (value : Int) ≤ Word.greatest then
        [.ok (.number position value),
          .ok (.endOfInput (position + (Nat.toDigits 10 value).length : Nat))]
      else [.error (.numberTooLarge (toString value) position)] := by
  have isRun : IsRun (Nat.toDigits 10 value) [] :=
    ⟨Nat.toDigits_ne_nil, fun _ => Text.isDigit_of_mem_toDigits, nofun⟩
  have met := events_run isRun position
  rw [List.append_nil, Token.ofDigits_toDigits] at met
  rw [met]
  by_cases inside : (value : Int) ≤ Word.greatest
  · simp only [if_pos inside, events_nil]
  · simp only [if_neg inside]

theorem ofText_toString_ofNat (value : Nat) :
    ofText (toString (Int.ofNat value)) =
      if (value : Int) ≤ Word.greatest then
        ⟨[.number 0 value, .endOfInput (Nat.toDigits 10 value).length], none⟩
      else ⟨[], some (.numberTooLarge (toString value) 0)⟩ := by
  refine events_injective ?_
  change eventsFrom 0 (toString (Int.ofNat value)).toList = _
  rw [Text.toList_toString_ofNat, events_toDigits, Nat.zero_add]
  split <;> rfl

theorem ofText_toString_negSucc (below : Nat) :
    ofText (toString (Int.negSucc below)) =
      if ((below + 1 : Nat) : Int) ≤ Word.greatest then
        ⟨[.operator 0 .minus, .number 1 (below + 1 : Nat),
          .endOfInput (1 + (Nat.toDigits 10 (below + 1)).length : Nat)], none⟩
      else ⟨[.operator 0 .minus], some (.numberTooLarge (toString (below + 1)) 1)⟩ := by
  refine events_injective ?_
  change eventsFrom 0 (toString (Int.negSucc below)).toList = _
  have minus : Operator.ofChar? '-' = some .minus := rfl
  rw [Text.toList_toString_negSucc, events_operator minus, events_toDigits, Nat.zero_add]
  split <;> rfl

end TokenStream

/-! ## Reading -/

/-- **What a written integer is read as**, where a sign before a number has a level to open: the
integer, or a number that is too large. -/
theorem Expr.parse_toString {limit : DepthLimit} (room : 2 ≤ limit.levels) (value : Int) :
    Expr.parse (toString value) limit =
      if Word.HoldsBoth value then .ok (.ofInt value)
      else .error (.numberTooLarge (toString value.natAbs) (if value < 0 then 1 else 0)) := by
  have first : ¬ limit.levels ≤ 0 := by omega
  have second : ¬ limit.levels ≤ 1 := by omega
  have positive : 0 < Word.greatest := by decide
  unfold Expr.parse TokenStream.read
  cases value with
  | ofNat value =>
      have both : Word.HoldsBoth (Int.ofNat value) ↔ (value : Int) ≤ Word.greatest := by
        simp only [Word.HoldsBoth, Int.ofNat_eq_natCast]
        omega
      simp only [TokenStream.ofText_toString_ofNat, both]
      split
      · simp [Reader.run, Reader.start, Reader.step, Reader.isFull, Reader.finish, Token.number,
          Token.endOfInput, Frame.settleAll, first, Expr.ofInt]
      · simp [Reader.run]
  | negSucc below =>
      have both : Word.HoldsBoth (Int.negSucc below) ↔
          ((below + 1 : Nat) : Int) ≤ Word.greatest := by
        simp only [Word.HoldsBoth]
        omega
      simp only [TokenStream.ofText_toString_negSucc, both]
      split
      · simp [Reader.run, Reader.start, Reader.step, Reader.isFull, Reader.finish, Token.operator,
          Token.number, Token.endOfInput, Frame.settleAll, Frame.complete, Operator.applyBefore,
          first, second, Expr.ofInt]
      · simp [Reader.run, Reader.start, Reader.step, Reader.isFull, Token.operator, first]

/-! ## Evaluating -/

/-- A written integer evaluates to itself, and nothing is asked. -/
theorem Expr.course_ofInt {σ : Type} (source : Source σ) (rules : Rules) {value : Int}
    (both : Word.HoldsBoth value) (state : σ) :
    (ofInt value).course source rules state = Course.done value state := by
  cases value with
  | ofNat value => rfl
  | negSucc below =>
      have same : -((below + 1 : Nat) : Int) = Int.negSucc below := rfl
      have holds : Word.Holds (-((below + 1 : Nat) : Int)) := both.holds
      simp only [ofInt, course, Course.andThen, Course.done, Course.result_of_holds holds]
      rw [same]
      rfl

/-! ## The main statement -/

/-- **A written integer rolls to itself exactly if its digits are a number in range.**

The text is the integer with its decimal digits, behind what is written in front of them, which
holds no digit. Whatever the integer, the source is asked nothing. The roll ends in the integer if
it lies between the greatest number in range and the opposite of that. Every other integer, of any
size and with either sign, is refused as too large, with all of its digits, and at the place of the
first of them. -/
theorem roll_of_written_integer {σ : Type} (source : Source σ) (state : σ) (maxDice : Option Int)
    (value : Int) :
    let text := toString value
    let digits := toString value.natAbs
    let outcome := (roll source state { maxDice } text).outcome
    let asked := (roll source.logged (state, []) { maxDice } text).asked
    (outcome = .ok value ∧ asked = [] ↔ -Word.greatest ≤ value ∧ value ≤ Word.greatest) ∧
      asked = [] ∧
      ∃ front, text.toList = front ++ digits.toList ∧ (∀ c ∈ front, Text.isDigit c = false) ∧
        outcome =
          if -Word.greatest ≤ value ∧ value ≤ Word.greatest then .ok value
          else .error (.numberTooLarge digits front.length) := by
  intro text digits outcome asked
  have room : 2 ≤ DepthLimit.standard.levels := by decide
  have read := Expr.parse_toString room value
  have silent : asked = [] := by
    have requests := asked_play source state ⟨false, maxDice⟩ .standard text
    refine requests.trans ?_
    rw [read]
    split
    · rename_i same
      split at same <;> cases same
      rfl
    · rename_i tree same
      split at same
      · rename_i both
        cases same
        rw [Expr.course_ofInt source ⟨false, maxDice⟩ both]
        rfl
      · cases same
  have ended : outcome =
      if Word.HoldsBoth value then .ok value
      else .error (.numberTooLarge digits (if value < 0 then 1 else 0)) := by
    simp only [outcome, roll, play, text, read]
    by_cases both : Word.HoldsBoth value
    · simp only [if_pos both, Table.evaluate_eq, Expr.course_ofInt source _ both]
      rfl
    · simp only [if_neg both]
      rfl
  refine ⟨?_, silent, ?_⟩
  · rw [ended, and_iff_left silent]
    by_cases both : Word.HoldsBoth value
    · simp [if_pos both, both.1, both.2]
    · rw [if_neg both]
      exact ⟨nofun, fun inside => absurd inside both⟩
  · cases value with
    | ofNat value => exact ⟨[], rfl, List.forall_mem_nil _, ended⟩
    | negSucc below =>
        rw [if_pos (Int.negSucc_lt_zero below)] at ended
        refine ⟨['-'], ?_, List.forall_mem_singleton.mpr rfl, ended⟩
        simp only [text, digits, Text.toList_toString_negSucc]
        exact congrArg (List.cons '-') (Text.toList_toString_ofNat (below + 1)).symm

end DiceNotation
