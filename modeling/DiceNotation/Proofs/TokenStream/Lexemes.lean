import DiceNotation.TokenStream
import Mathlib.Data.List.TakeWhile

/-!
# What a text is made of

A splitting looks at the characters of a text from left to right. A text is empty, or starts with a
blank, with a maximal run of digits, with the character of an operator, or with a stranger, which is
any other character. Cutting off what a text starts with, again and again, is an induction principle
for texts (`text_induction`); its cases are those of a splitting.

A run of digits is maximal only with regard to what is behind it, so a run is a relation between its
digits and the characters behind them (`IsRun`). For the same reason two texts can be split one
after the other only if no run reaches from the one into the other (`Apart`).

What a splitting looks at together is a lexeme (`Lexeme`). Of a number that starts with a zero these
are only the zero and the next digit.
-/

set_option autoImplicit false

namespace DiceNotation

namespace Text

theorem isSkipped_eq_false_of_isDigit {c : Char} (digit : isDigit c = true) :
    isSkipped c = false := by
  cases skipped : isSkipped c with
  | false => rfl
  | true =>
      simp only [isSkipped, Bool.or_eq_true, beq_iff_eq] at skipped
      rcases skipped with ((rfl | rfl) | rfl) | rfl <;> exact absurd digit (by decide)

theorem isDigit_eq_false_of_isSkipped {c : Char} (skipped : isSkipped c = true) :
    isDigit c = false := by
  cases digit : isDigit c with
  | false => rfl
  | true =>
      rw [isSkipped_eq_false_of_isDigit digit] at skipped
      cases skipped

/-- The character of an operator is neither a blank nor a digit. -/
theorem isSkipped_isDigit_of_ofChar? {c : Char} {operator : Operator}
    (spelled : Operator.ofChar? c = some operator) :
    isSkipped c = false ∧ isDigit c = false := by
  unfold Operator.ofChar? at spelled
  split at spelled <;> first | exact ⟨by decide, by decide⟩ | cases spelled

end Text

/-! ## The shape of a text -/

/-- A run of digits with nothing behind it that would continue it. -/
structure IsRun (digits rest : List Char) : Prop where
  ne_nil : digits ≠ []
  digits : ∀ c ∈ digits, Text.isDigit c = true
  maximal : ∀ c ∈ rest.head?, Text.isDigit c = false

/-- A character that neither separates tokens nor starts one. -/
structure IsStranger (c : Char) : Prop where
  skipped : Text.isSkipped c = false
  digit : Text.isDigit c = false
  spelled : Operator.ofChar? c = none

/-- A run with less behind it. -/
theorem IsRun.of_append {digits first second : List Char} (isRun : IsRun digits (first ++ second)) :
    IsRun digits first where
  ne_nil := isRun.ne_nil
  digits := isRun.digits
  maximal c head := by
    refine isRun.maximal c ?_
    rw [Option.mem_def] at head
    rw [Option.mem_def, List.head?_append, head, Option.some_or]

theorem isRun_takeWhile {c : Char} (digit : Text.isDigit c = true) (rest : List Char) :
    IsRun (c :: rest.takeWhile Text.isDigit) (rest.dropWhile Text.isDigit) where
  ne_nil := List.cons_ne_nil _ _
  digits other member := by
    rcases List.mem_cons.mp member with rfl | inside
    · exact digit
    · exact List.mem_takeWhile_imp inside
  maximal other first := by
    have := List.head?_dropWhile_not Text.isDigit rest
    rw [Option.mem_def] at first
    rw [first] at this
    simpa using this

theorem IsRun.takeWhile_eq {digits rest : List Char} (isRun : IsRun digits rest) :
    (digits ++ rest).takeWhile Text.isDigit = digits := by
  rw [List.takeWhile_append_of_pos isRun.digits]
  cases rest with
  | nil => simp
  | cons next rest => simp [isRun.maximal next rfl]

theorem IsRun.dropWhile_eq {digits rest : List Char} (isRun : IsRun digits rest) :
    (digits ++ rest).dropWhile Text.isDigit = rest := by
  rw [List.dropWhile_append_of_pos isRun.digits]
  cases rest with
  | nil => rfl
  | cons next rest => simp [isRun.maximal next rfl]

/-- A text is empty or starts with a blank, a maximal run of digits, an operator or a stranger. -/
@[elab_as_elim]
theorem text_induction {motive : List Char → Prop} (nil : motive [])
    (blank : ∀ (c : Char) (rest : List Char), Text.isSkipped c = true → motive rest →
      motive (c :: rest))
    (run : ∀ (digits rest : List Char), IsRun digits rest → motive rest → motive (digits ++ rest))
    (operator : ∀ (c : Char) (operator : Operator) (rest : List Char),
      Operator.ofChar? c = some operator → motive rest → motive (c :: rest))
    (stranger : ∀ (c : Char) (rest : List Char), IsStranger c → motive (c :: rest))
    (chars : List Char) : motive chars := by
  induction length : chars.length using Nat.strongRecOn generalizing chars with
  | _ n ih =>
      subst length
      cases chars with
      | nil => exact nil
      | cons c rest =>
          have tail : motive rest := ih _ (Nat.lt_succ_self _) rest rfl
          cases skipped : Text.isSkipped c with
          | true => exact blank c rest skipped tail
          | false =>
              cases digit : Text.isDigit c with
              | true =>
                  have shorter := TokenStream.length_dropWhile_le Text.isDigit rest
                  have behind : motive (rest.dropWhile Text.isDigit) :=
                    ih _ (Nat.lt_succ_of_le shorter) _ rfl
                  have whole := run _ _ (isRun_takeWhile digit rest) behind
                  rwa [List.cons_append, List.takeWhile_append_dropWhile] at whole
              | false =>
                  cases spelled : Operator.ofChar? c with
                  | some sign => exact operator c sign rest spelled tail
                  | none => exact stranger c rest ⟨skipped, digit, spelled⟩

/-! ## Texts in two halves -/

/-- No run of digits reaches from the end of one text into the start of another. -/
def Apart (first second : List Char) : Prop :=
  ∀ c ∈ first.getLast?, ∀ d ∈ second.head?, Text.isDigit c = true → Text.isDigit d = false

theorem apart_nil (second : List Char) : Apart [] second :=
  fun _ impossible => (nomatch impossible)

theorem Apart.of_append {front first second : List Char} (apart : Apart (front ++ first) second) :
    Apart first second := by
  intro c last
  refine apart c ?_
  rw [Option.mem_def] at last
  rw [Option.mem_def, List.getLast?_append, last, Option.some_or]

theorem Apart.of_cons {c : Char} {first second : List Char} (apart : Apart (c :: first) second) :
    Apart first second :=
  @Apart.of_append [c] first second apart

/-- Of the second half only the first character matters. -/
theorem Apart.of_ne_nil {first lexeme rest : List Char} (apart : Apart first (lexeme ++ rest))
    (present : lexeme ≠ []) (more : List Char) : Apart first (lexeme ++ more) := by
  cases lexeme with
  | nil => exact absurd rfl present
  | cons c lexeme => exact apart

/-- What stands before the first half matters only if that half is empty. -/
theorem Apart.append {front first second : List Char} (apart : Apart first second)
    (alone : first = [] → Apart front second) : Apart (front ++ first) second := by
  cases ended : first.getLast? with
  | none =>
      rw [List.getLast?_eq_none_iff] at ended
      rw [ended, List.append_nil]
      exact alone ended
  | some c =>
      intro other last
      rw [Option.mem_def, List.getLast?_append, ended, Option.some_or] at last
      exact apart other (ended.trans last)

theorem apart_singleton {c : Char} (digit : Text.isDigit c = false) (second : List Char) :
    Apart [c] second := by
  intro other last _ _ impossible
  obtain rfl : c = other := Option.some.inj last
  rw [digit] at impossible
  cases impossible

/-- A character that is not a digit may be put in front. -/
theorem Apart.cons {c : Char} (digit : Text.isDigit c = false) {first second : List Char}
    (apart : Apart first second) : Apart (c :: first) second :=
  apart.append fun _ => apart_singleton digit second

theorem IsRun.apart {digits rest : List Char} (isRun : IsRun digits rest) : Apart digits rest :=
  fun _ _ d first _ => isRun.maximal d first

theorem IsRun.of_apart {digits rest second : List Char} (isRun : IsRun digits rest)
    (apart : Apart digits second) : IsRun digits second where
  ne_nil := isRun.ne_nil
  digits := isRun.digits
  maximal c first := by
    obtain ⟨last, member⟩ : ∃ last, digits.getLast? = some last :=
      ⟨_, List.getLast?_eq_some_getLast isRun.ne_nil⟩
    exact apart last member c first (isRun.digits last (List.mem_of_getLast? member))

theorem IsRun.append {digits rest : List Char} (isRun : IsRun digits rest) {second : List Char}
    (apart : Apart (digits ++ rest) second) : IsRun digits (rest ++ second) := by
  cases rest with
  | nil =>
      rw [List.append_nil] at apart
      exact isRun.of_apart apart
  | cons next rest => exact ⟨isRun.ne_nil, isRun.digits, fun c first => isRun.maximal c first⟩

/-! ## Lexemes -/

/-- The characters at the start of a text, with those behind them, that a splitting looks at
together: a character that is neither a blank nor a digit, a zero and a digit behind it, or a
maximal run of digits. -/
inductive Lexeme : List Char → List Char → Prop
  | single {c : Char} (rest : List Char) :
      Text.isSkipped c = false → Text.isDigit c = false → Lexeme [c] rest
  | leadingZero {d : Char} (rest : List Char) : Text.isDigit d = true → Lexeme ['0', d] rest
  | run {digits rest : List Char} : IsRun digits rest → Lexeme digits rest

/-- The first characters of a text make a lexeme. -/
def StartsWithLexeme (chars : List Char) : Prop :=
  ∃ lexeme rest, chars = lexeme ++ rest ∧ Lexeme lexeme rest

theorem Lexeme.ne_nil {lexeme rest : List Char} (found : Lexeme lexeme rest) : lexeme ≠ [] := by
  cases found with
  | single _ _ _ => exact List.cons_ne_nil _ _
  | leadingZero _ _ => exact List.cons_ne_nil _ _
  | run isRun => exact isRun.ne_nil

end DiceNotation
