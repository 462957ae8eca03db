import DiceNotation.Proofs.TokenStream.Lexemes

/-!
# Numerals and their values

A number is written in one way only: with its decimal digits, the first of which is a zero only if
it is the whole number. So a numeral tells its value and a value tells its numeral
(`toDigits_ofDigitChars`).

Behind a numeral the digits end, so what is written with one is told apart from what follows it
(`toDigits_append_inj`), and so is a number with a sign (`toString_append_inj`).

A splitting computes the value of a run of digits from left to right and gives up as soon as the
value leaves the range. No value comes back into the range when digits are added, so this decides
the same as a look at the value of the whole run (`literalValue?_eq`). Both together say what a
numeral is read as (`Token.ofDigits_toDigits`), and which runs of digits are numbers
(`Token.ofDigits_eq_ok_iff`).
-/

set_option autoImplicit false

namespace DiceNotation

namespace Text

theorem isDigit_of_mem_toDigits {value : Nat} {c : Char} (member : c ∈ Nat.toDigits 10 value) :
    isDigit c = true :=
  Nat.isDigit_of_mem_toDigits (by decide) (by decide) member

/-- A digit is its value above zero. -/
theorem toNat_eq_of_isDigit {c : Char} (digit : isDigit c = true) :
    c.toNat = 48 + digitValue c ∧ digitValue c < 10 := by
  obtain ⟨low, high⟩ : 48 ≤ c.toNat ∧ c.toNat ≤ 57 := Char.isDigit_iff_toNat.mp digit
  have same : digitValue c = c.toNat - 48 := rfl
  omega

theorem digitValue_pos {c : Char} (digit : isDigit c = true) (other : c ≠ '0') :
    0 < digitValue c := by
  refine Nat.pos_of_ne_zero fun zero => other ?_
  rw [← Char.toNat_inj, (toNat_eq_of_isDigit digit).1, zero]
  rfl

/-- A digit is the numeral of its value. -/
theorem toDigits_digitValue {c : Char} (digit : isDigit c = true) :
    Nat.toDigits 10 (digitValue c) = [c] := by
  obtain ⟨same, small⟩ := toNat_eq_of_isDigit digit
  rw [Nat.toDigits_of_lt_base small, List.singleton_inj, ← Char.toNat_inj,
    Nat.toNat_digitChar_of_lt_ten small, same]

/-- The numeral of a number above zero does not start with a zero. -/
theorem head?_toDigits_ne {value : Nat} (positive : 0 < value) :
    (Nat.toDigits 10 value).head? ≠ some '0' := by
  induction value using Nat.strongRecOn with
  | _ value ih =>
      rw [Nat.toDigits_eq_if (by decide)]
      split
      · simp only [List.head?_cons, ne_eq, Option.some.injEq, Nat.digitChar_eq_zero]
        omega
      · have front := ih (value / 10) (by omega) (by omega)
        obtain ⟨c, others, same⟩ := List.exists_cons_of_ne_nil
          (Nat.toDigits_ne_nil : Nat.toDigits 10 (value / 10) ≠ [])
        rw [same] at front ⊢
        exact front

/-- A zero that starts a numeral is the whole numeral. -/
theorem toDigits_ne_zero_cons (value : Nat) (d : Char) (rest : List Char) :
    Nat.toDigits 10 value ≠ '0' :: d :: rest := by
  intro same
  rcases Nat.eq_zero_or_pos value with rfl | positive
  · simp [Nat.toDigits_zero] at same
  · have head := head?_toDigits_ne positive
    rw [same] at head
    exact head rfl

/-- A numeral, continued by digits, is the numeral of the continued value. -/
theorem toDigits_append {digits : List Char} (all : ∀ c ∈ digits, isDigit c = true) :
    ∀ {value : Nat}, 0 < value →
      Nat.toDigits 10 value ++ digits = Nat.toDigits 10 (Nat.ofDigitChars 10 digits value) := by
  induction digits with
  | nil => exact fun _ => List.append_nil _
  | cons c rest ih =>
      intro value positive
      obtain ⟨digit, others⟩ := List.forall_mem_cons.mp all
      have small : digitValue c < 10 := (toNat_eq_of_isDigit digit).2
      calc
        Nat.toDigits 10 value ++ c :: rest
            = Nat.toDigits 10 value ++ Nat.toDigits 10 (digitValue c) ++ rest := by
              rw [toDigits_digitValue digit, List.append_assoc, List.singleton_append]
        _ = Nat.toDigits 10 (10 * value + digitValue c) ++ rest := by
              rw [Nat.toDigits_append_toDigits (by decide) positive small]
        _ = Nat.toDigits 10 (Nat.ofDigitChars 10 (c :: rest) value) := by
              rw [ih others (by omega), Nat.ofDigitChars_cons, digitValue]

/-- **A numeral is the numeral of its value.** -/
theorem toDigits_ofDigitChars {digits : List Char} (present : digits ≠ [])
    (all : ∀ c ∈ digits, isDigit c = true)
    (canonical : ∀ c d rest, digits = c :: d :: rest → c ≠ '0') :
    Nat.toDigits 10 (Nat.ofDigitChars 10 digits 0) = digits := by
  cases digits with
  | nil => exact absurd rfl present
  | cons c rest =>
      obtain ⟨digit, others⟩ := List.forall_mem_cons.mp all
      have start : Nat.ofDigitChars 10 (c :: rest) 0 = Nat.ofDigitChars 10 rest (digitValue c) := by
        rw [Nat.ofDigitChars_cons, digitValue, Nat.mul_zero, Nat.zero_add]
      rw [start]
      cases rest with
      | nil => rw [Nat.ofDigitChars_nil, toDigits_digitValue digit]
      | cons d rest =>
          have positive : 0 < digitValue c :=
            digitValue_pos digit (canonical c d rest rfl)
          rw [← toDigits_append others positive, toDigits_digitValue digit, List.singleton_append]

/-- Nothing in front of which a numeral would go on. -/
def Ends (rest : List Char) : Prop :=
  ∀ c ∈ rest.head?, isDigit c = false

theorem ends_nil : Ends [] :=
  fun _ impossible => (nomatch impossible)

/-- **A numeral ends where its digits end**, whatever is behind it. -/
theorem toDigits_append_inj {value value' : Nat} {rest rest' : List Char}
    (ends : Ends rest) (ends' : Ends rest')
    (same : Nat.toDigits 10 value ++ rest = Nat.toDigits 10 value' ++ rest') :
    value = value' ∧ rest = rest' := by
  have isRun : IsRun (Nat.toDigits 10 value) rest :=
    ⟨Nat.toDigits_ne_nil, fun _ => isDigit_of_mem_toDigits, ends⟩
  have isRun' : IsRun (Nat.toDigits 10 value') rest' :=
    ⟨Nat.toDigits_ne_nil, fun _ => isDigit_of_mem_toDigits, ends'⟩
  have digits : Nat.toDigits 10 value = Nat.toDigits 10 value' := by
    rw [← isRun.takeWhile_eq, same, isRun'.takeWhile_eq]
  refine ⟨?_, by rw [← isRun.dropWhile_eq, same, isRun'.dropWhile_eq]⟩
  rw [← Nat.ofDigitChars_ten_toDigits (n := value), digits, Nat.ofDigitChars_ten_toDigits]

/-! ## Numbers with a sign -/

/-- A number from zero on is written with its digits. -/
theorem toList_toString_ofNat (value : Nat) :
    (toString (Int.ofNat value)).toList = Nat.toDigits 10 value :=
  Nat.toList_repr

/-- A number below zero is written with a minus and the digits of its opposite. -/
theorem toList_toString_negSucc (value : Nat) :
    (toString (Int.negSucc value)).toList = '-' :: Nat.toDigits 10 (value + 1) := by
  have written : toString (Int.negSucc value) = "-" ++ (value + 1).repr := rfl
  rw [written, String.toList_append, Nat.toList_repr]
  rfl

theorem exists_head_toDigits (value : Nat) :
    ∃ c rest, Nat.toDigits 10 value = c :: rest ∧ isDigit c = true := by
  obtain ⟨c, rest, written⟩ := List.exists_cons_of_ne_nil
    (Nat.toDigits_ne_nil : Nat.toDigits 10 value ≠ [])
  have member : c ∈ Nat.toDigits 10 value := by
    rw [written]
    exact List.mem_cons_self ..
  exact ⟨c, rest, written, isDigit_of_mem_toDigits member⟩

/-- **A number with a sign ends where its digits end**, whatever is behind it. -/
theorem toString_append_inj {value value' : Int} {rest rest' : List Char}
    (ends : Ends rest) (ends' : Ends rest')
    (same : (toString value).toList ++ rest = (toString value').toList ++ rest') :
    value = value' ∧ rest = rest' := by
  have differ {natural below : Nat} {rest rest' : List Char} :
      Nat.toDigits 10 natural ++ rest ≠ '-' :: Nat.toDigits 10 below ++ rest' := by
    obtain ⟨c, others, written, digit⟩ := exists_head_toDigits natural
    rw [written]
    intro same
    obtain ⟨rfl, _⟩ := List.cons.inj same
    cases digit
  cases value with
  | ofNat value =>
      cases value' with
      | ofNat value' =>
          rw [toList_toString_ofNat, toList_toString_ofNat] at same
          obtain ⟨rfl, behind⟩ := toDigits_append_inj ends ends' same
          exact ⟨rfl, behind⟩
      | negSucc value' =>
          rw [toList_toString_ofNat, toList_toString_negSucc] at same
          exact absurd same differ
  | negSucc value =>
      cases value' with
      | ofNat value' =>
          rw [toList_toString_ofNat, toList_toString_negSucc] at same
          exact absurd same.symm differ
      | negSucc value' =>
          rw [toList_toString_negSucc, toList_toString_negSucc] at same
          obtain ⟨next, behind⟩ := toDigits_append_inj ends ends' (List.cons.inj same).2
          obtain rfl : value = value' := Nat.succ.inj next
          exact ⟨rfl, behind⟩

end Text

/-! ## Runs of digits in range -/

/-- Digits do not make a value smaller. -/
theorem le_ofDigitChars (digits : List Char) (value : Nat) :
    value ≤ Nat.ofDigitChars 10 digits value := by
  induction digits generalizing value with
  | nil => exact Nat.le_refl value
  | cons c rest ih =>
      rw [Nat.ofDigitChars_cons]
      have := ih (10 * value + (c.toNat - '0'.toNat))
      omega

/-- **Giving up at the first value out of range is looking at the value of the whole run.** -/
theorem literalValue?_eq {digits : List Char} : ∀ {value : Nat}, (value : Int) ≤ Word.greatest →
    literalValue? value digits =
      if (Nat.ofDigitChars 10 digits value : Int) ≤ Word.greatest then
        some (Nat.ofDigitChars 10 digits value)
      else none := by
  induction digits with
  | nil =>
      intro value small
      rw [literalValue?, Nat.ofDigitChars_nil, if_pos small]
  | cons c rest ih =>
      intro value small
      have next : 10 * value + (c.toNat - '0'.toNat) = value * 10 + Text.digitValue c := by
        rw [Text.digitValue, Nat.mul_comm]
      simp only [literalValue?, Nat.ofDigitChars_cons, next]
      by_cases large : Word.greatest < ((value * 10 + Text.digitValue c : Nat) : Int)
      · have grows := le_ofDigitChars rest (value * 10 + Text.digitValue c)
        rw [if_pos large, if_neg (by omega)]
      · rw [if_neg large, ih (by omega)]

/-- A run of several digits that starts with a zero. -/
def Text.IsPadded (digits : List Char) : Prop :=
  2 ≤ digits.length ∧ digits.head? = some '0'

instance (digits : List Char) : Decidable (Text.IsPadded digits) :=
  inferInstanceAs (Decidable (_ ∧ _))

/-- **What a run of digits is read as** depends on its first digits and on the value of the whole
run. -/
theorem Token.ofDigits_eq (position : Nat) (digits : List Char) :
    Token.ofDigits position digits =
      if Text.IsPadded digits then .error (.leadingZero position)
      else if (Nat.ofDigitChars 10 digits 0 : Int) ≤ Word.greatest then
        .ok (.number position (Nat.ofDigitChars 10 digits 0))
      else .error (.numberTooLarge (String.ofList digits) position) := by
  have zero : ((0 : Nat) : Int) ≤ Word.greatest := by decide
  unfold Token.ofDigits
  split
  · rename_i d rest
    have padded : Text.IsPadded ('0' :: d :: rest) := ⟨by simp, rfl⟩
    rw [if_pos padded]
  · rename_i canonical
    have plain : ¬ Text.IsPadded digits := by
      rintro ⟨several, first⟩
      match digits, several, first with
      | _ :: d :: rest, _, rfl => exact canonical d rest rfl
    rw [if_neg plain, literalValue?_eq zero]
    split
    · rename_i value same
      split at same
      · rename_i inside
        cases same
        rw [if_pos inside]
      · cases same
    · rename_i same
      split at same
      · cases same
      · rename_i outside
        rw [if_neg outside]

/-- A numeral has no zero in front. -/
theorem Text.not_isPadded_toDigits (value : Nat) : ¬ IsPadded (Nat.toDigits 10 value) := by
  rintro ⟨several, first⟩
  match same : Nat.toDigits 10 value, several, first with
  | _ :: d :: rest, _, rfl => exact toDigits_ne_zero_cons value d rest same

/-- **What a numeral is read as** depends on its value alone. -/
theorem Token.ofDigits_toDigits (position value : Nat) :
    Token.ofDigits position (Nat.toDigits 10 value) =
      if (value : Int) ≤ Word.greatest then .ok (.number position value)
      else .error (.numberTooLarge (toString value) position) := by
  rw [Token.ofDigits_eq, if_neg (Text.not_isPadded_toDigits value), Nat.ofDigitChars_ten_toDigits]
  rfl

/-- **A run of digits is a number in range exactly when it is the numeral of one.** -/
theorem Token.ofDigits_eq_ok_iff {digits : List Char} (present : digits ≠ [])
    (all : ∀ c ∈ digits, Text.isDigit c = true) {position : Nat} {token : Token} :
    Token.ofDigits position digits = .ok token ↔
      ∃ value : Nat, digits = Nat.toDigits 10 value ∧ (value : Int) ≤ Word.greatest ∧
        token = .number position value := by
  constructor
  · intro number
    rw [Token.ofDigits_eq] at number
    split at number
    · cases number
    · rename_i plain
      split at number
      · rename_i inside
        cases number
        refine ⟨_, (Text.toDigits_ofDigitChars present all ?_).symm, inside, rfl⟩
        rintro c d rest rfl rfl
        exact plain ⟨by simp, rfl⟩
      · cases number
  · rintro ⟨value, rfl, inside, rfl⟩
    rw [Token.ofDigits_toDigits, if_pos inside]

end DiceNotation
