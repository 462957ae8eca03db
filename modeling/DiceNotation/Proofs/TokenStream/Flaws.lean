import DiceNotation.Proofs.TokenStream.Spelling

/-!
# Flaws of a text

A text has a flaw where a character stands that is not used in notations, and where a maximal run of
digits starts that is no number: one of several digits with a zero in front, or one whose value is
out of range. A run with both defects counts as one with a zero in front. Whether a text has a flaw
at some index is said of the text as a whole, and of the value of a whole run (`Text.HasFlaw`).

A splitting does not look behind its first fault, and it gives a long run up in the middle. It finds
the flaw with the least index all the same, and in front of it the tokens that the text before the
flaw is split into when it stands alone (`splitting_stops_at_first_flaw`). Two facts carry this. A
flaw divides its text in two halves that are apart, and the second half starts with its fault, so a
splitting does not get beyond a flaw (`Text.HasFlaw.stops`). And where a splitting stops there is a
flaw (`TokenStream.hasFlaw_of_fault`).
-/

set_option autoImplicit false

namespace DiceNotation

/-! ## Flaws -/

namespace Text

/-- A character that is not used in notations: neither a digit nor an operator nor white space. -/
def IsForeign (c : Char) : Prop :=
  isDigit c = false ∧ c ∉ ['+', '-', 'd', 'D', ' ', '\t', '\r', '\n']

/-- A run of digits between two texts, with no digit on either side. -/
structure IsWholeRun (front digits rest : List Char) : Prop extends IsRun digits rest where
  alone : ∀ c ∈ front.getLast?, isDigit c = false

/-- What can be wrong at one place of a text. -/
inductive Flaw
  | foreign (c : Char)
  | leadingZero
  | tooLarge (digits : List Char)
deriving DecidableEq

/-- The fault that tells of a flaw at some position. -/
def Flaw.fault (position : Nat) : Flaw → Fault
  | foreign c => .unexpectedCharacter c.toString position
  | leadingZero => .leadingZero position
  | tooLarge digits => .numberTooLarge (String.ofList digits) position

/-- Behind a text, another one starts with a flaw. -/
inductive StartsWithFlaw (front : List Char) : List Char → Flaw → Prop
  | foreign {c : Char} (rest : List Char) :
      IsForeign c → StartsWithFlaw front (c :: rest) (.foreign c)
  | leadingZero {digits rest : List Char} :
      IsWholeRun front digits rest → IsPadded digits →
        StartsWithFlaw front (digits ++ rest) .leadingZero
  | tooLarge {digits rest : List Char} :
      IsWholeRun front digits rest → ¬ IsPadded digits →
        Word.greatest < Nat.ofDigitChars 10 digits 0 →
          StartsWithFlaw front (digits ++ rest) (.tooLarge digits)

/-- A text has a flaw at an index. -/
def HasFlaw (chars : List Char) (index : Nat) (flaw : Flaw) : Prop :=
  StartsWithFlaw (chars.take index) (chars.drop index) flaw

/-- A text has a flaw at an index, and none before it. -/
def HasFirstFlaw (chars : List Char) (index : Nat) (flaw : Flaw) : Prop :=
  HasFlaw chars index flaw ∧ ∀ other flaw', HasFlaw chars other flaw' → index ≤ other

/-- A foreign character is what a splitting cannot start a token with. -/
theorem isForeign_iff {c : Char} : IsForeign c ↔ IsStranger c := by
  constructor
  · rintro ⟨digit, other⟩
    simp only [List.mem_cons, List.not_mem_nil, or_false, not_or] at other
    refine ⟨?_, digit, ?_⟩
    · simp [isSkipped, other]
    · unfold Operator.ofChar?
      split <;> simp_all
  · rintro ⟨skipped, digit, spelled⟩
    refine ⟨digit, fun member => ?_⟩
    simp only [List.mem_cons, List.not_mem_nil, or_false] at member
    rcases member with rfl | rfl | rfl | rfl | rfl | rfl | rfl | rfl <;> revert skipped spelled <;>
      decide

/-- A digit at the end of a text would continue a run behind it. -/
theorem IsWholeRun.of_apart {front digits rest : List Char} (isRun : IsRun digits rest)
    (apart : Apart front (digits ++ rest)) : IsWholeRun front digits rest := by
  refine ⟨isRun, fun c last => ?_⟩
  obtain ⟨first, others, rfl⟩ := List.exists_cons_of_ne_nil isRun.ne_nil
  have digit : isDigit first = true := isRun.digits first (List.mem_cons_self ..)
  cases before : isDigit c with
  | false => rfl
  | true =>
      rw [apart c last first rfl before] at digit
      cases digit

namespace StartsWithFlaw

variable {front second : List Char} {flaw : Flaw}

theorem ne_nil (starts : StartsWithFlaw front second flaw) : second ≠ [] := by
  cases starts with
  | foreign rest _ => exact List.cons_ne_nil _ _
  | leadingZero run _ => exact List.append_ne_nil_of_left_ne_nil run.ne_nil _
  | tooLarge run _ _ => exact List.append_ne_nil_of_left_ne_nil run.ne_nil _

/-- No run of digits reaches into a text from before its flaw. -/
theorem apart (starts : StartsWithFlaw front second flaw) : Apart front second := by
  have whole {digits rest : List Char} (run : IsWholeRun front digits rest) :
      Apart front (digits ++ rest) := by
    intro c last _ _ digit
    rw [run.alone c last] at digit
    cases digit
  cases starts with
  | foreign rest other =>
      intro _ _ d first _
      cases first
      exact other.1
  | leadingZero run _ => exact whole run
  | tooLarge run _ _ => exact whole run

/-- **A splitting meets a flaw as its fault.** -/
theorem events (starts : StartsWithFlaw front second flaw) (position : Nat) :
    TokenStream.eventsFrom position second = [.error (flaw.fault position)] := by
  cases starts with
  | foreign rest other => exact TokenStream.events_stranger (isForeign_iff.mp other) position rest
  | leadingZero run padded =>
      rw [TokenStream.events_run run.toIsRun, Token.ofDigits_eq, if_pos padded]
      rfl
  | tooLarge run plain outside =>
      rw [TokenStream.events_run run.toIsRun, Token.ofDigits_eq, if_neg plain,
        if_neg (Int.not_le.mpr outside)]
      rfl

end StartsWithFlaw

/-- The place of a flaw in its text. -/
theorem HasFlaw.index_lt {chars : List Char} {index : Nat} {flaw : Flaw}
    (has : HasFlaw chars index flaw) : index < chars.length :=
  Nat.lt_of_not_le fun outside => has.ne_nil (List.drop_eq_nil_of_le outside)

theorem Flaw.position?_fault (position : Nat) (flaw : Flaw) :
    (flaw.fault position).position? = some (position : Int) := by
  cases flaw <;> rfl

end Text

/-- A lexeme does not start with white space. -/
theorem StartsWithLexeme.isSkipped_head {c : Char} {rest : List Char}
    (starts : StartsWithLexeme (c :: rest)) : Text.isSkipped c = false := by
  obtain ⟨lexeme, behind, same, found⟩ := starts
  obtain ⟨first, others, rfl⟩ := List.exists_cons_of_ne_nil found.ne_nil
  obtain ⟨rfl, _⟩ := List.cons.inj same
  cases found with
  | single _ skipped _ => exact skipped
  | leadingZero _ _ => decide
  | run isRun =>
      exact Text.isSkipped_eq_false_of_isDigit (isRun.digits c (List.mem_cons_self ..))

/-! ## Where a splitting stops -/

namespace TokenStream

/-- The events of some characters are tokens up to the end of the input, or up to a fault. -/
theorem eventsFrom_cases (position : Nat) (chars : List Char) :
    (∃ (tokens : List Token) (place : Int),
        eventsFrom position chars = tokens.map .ok ++ [.ok (.endOfInput place)]) ∨
      ∃ (tokens : List Token) (fault : Fault),
        eventsFrom position chars = tokens.map .ok ++ [.error fault] := by
  have closed := closed_eventsFrom chars position
  unfold eventsFrom at closed ⊢
  generalize scan position chars [] = stream at closed ⊢
  rcases stream with ⟨tokens, _ | fault⟩
  · have only : events ⟨tokens, none⟩ = tokens.map .ok := List.append_nil _
    rw [only] at closed
    obtain ⟨inner, place, rfl⟩ := closed.exists_endOfInput
    exact .inl ⟨inner, place, by rw [only, List.map_append]; rfl⟩
  · exact .inr ⟨tokens, fault, rfl⟩

/-- Events that end in a fault have no end of the input that could be replaced. -/
theorem replaceEnd_of_fault {before : List Event} {fault : Fault} (later : List Event)
    (closed : Closed (before ++ [.error fault])) :
    replaceEnd later (before ++ [.error fault]) = before ++ [.error fault] := by
  induction before with
  | nil => rfl
  | cons event before ih =>
      generalize behind : before ++ [.error fault] = rest at closed ih
      rw [List.cons_append, behind] at closed ⊢
      cases closed with
      | endOfInput _ => simp at behind
      | fault _ => simp at behind
      | token inner closed => rw [replaceEnd_token inner, ih closed]

/-- A fault at the start of a text tells of a flaw there. -/
theorem startsWithFlaw_of_error {front second : List Char} {position : Nat} {fault : Fault}
    {after : List Event} (apart : Apart front second)
    (starts : second = [] ∨ StartsWithLexeme second)
    (met : eventsFrom position second = .error fault :: after) :
    ∃ flaw, Text.StartsWithFlaw front second flaw ∧ fault = flaw.fault position := by
  induction second using text_induction with
  | nil =>
      rw [events_nil] at met
      cases met
  | blank c rest skipped _ =>
      rcases starts with impossible | starts
      · cases impossible
      · rw [starts.isSkipped_head] at skipped
        cases skipped
  | run digits rest isRun _ =>
      have whole := Text.IsWholeRun.of_apart isRun apart
      rw [events_run isRun, Token.ofDigits_eq] at met
      by_cases padded : Text.IsPadded digits
      · rw [if_pos padded] at met
        cases met
        exact ⟨.leadingZero, .leadingZero whole padded, rfl⟩
      · rw [if_neg padded] at met
        by_cases inside : (Nat.ofDigitChars 10 digits 0 : Int) ≤ Word.greatest
        · rw [if_pos inside] at met
          cases met
        · rw [if_neg inside] at met
          cases met
          exact ⟨.tooLarge digits, .tooLarge whole padded (Int.not_le.mp inside), rfl⟩
  | operator c operator rest spelled _ =>
      rw [events_operator spelled] at met
      cases met
  | stranger c rest stranger =>
      rw [events_stranger stranger] at met
      cases met
      exact ⟨.foreign c, .foreign rest (Text.isForeign_iff.mpr stranger), rfl⟩

/-- **Where a splitting stops there is a flaw**, and what it has met are the tokens of the text in
front. -/
theorem hasFlaw_of_fault {chars : List Char} {before after : List Event} {fault : Fault}
    (met : eventsFrom 0 chars = before ++ .error fault :: after) :
    ∃ index flaw, Text.HasFlaw chars index flaw ∧ fault = flaw.fault index ∧
      eventsFrom 0 (chars.take index) = before ++ [.ok (.endOfInput index)] := by
  obtain ⟨first, second, rfl, apart, starts, alone, _⟩ := events_split met
  rw [events_append_of_eq apart alone, List.append_cancel_left_eq] at met
  rw [Nat.zero_add] at met alone
  obtain ⟨flaw, starts, rfl⟩ := startsWithFlaw_of_error apart starts met
  refine ⟨first.length, flaw, ?_, rfl, ?_⟩
  · rw [Text.HasFlaw, List.take_left, List.drop_left]
    exact starts
  · rw [List.take_left]
    exact alone

end TokenStream

/-- **A splitting does not get beyond a flaw.** -/
theorem Text.HasFlaw.stops {chars : List Char} {index : Nat} {flaw : Flaw}
    (has : HasFlaw chars index flaw) :
    ∃ (tokens : List Token) (fault : Fault),
      TokenStream.eventsFrom 0 chars = tokens.map .ok ++ [.error fault] ∧
        ∃ place : Nat, fault.position? = some (place : Int) ∧ place ≤ index := by
  have length : (chars.take index).length = index := List.length_take_of_le has.index_lt.le
  have whole : TokenStream.eventsFrom 0 chars =
      TokenStream.replaceEnd [.error (flaw.fault index)]
        (TokenStream.eventsFrom 0 (chars.take index)) := by
    have halves := TokenStream.events_append has.apart 0
    rwa [List.take_append_drop, length, has.events, Nat.zero_add] at halves
  have closed := TokenStream.closed_eventsFrom (chars.take index) 0
  rcases TokenStream.eventsFrom_cases 0 (chars.take index) with
    ⟨tokens, place, met⟩ | ⟨tokens, fault, met⟩
  · -- nothing is wrong in front, so the flaw itself is met
    rw [met] at whole closed
    rw [TokenStream.replaceEnd_of_closed _ closed] at whole
    exact ⟨tokens, flaw.fault index, whole, index, flaw.position?_fault index, Nat.le_refl _⟩
  · rw [met] at whole closed
    rw [TokenStream.replaceEnd_of_fault _ closed] at whole
    obtain ⟨first, second, same, _, _, _, place⟩ := TokenStream.events_split met
    have within := congrArg List.length same
    rw [length, List.length_append] at within
    exact ⟨tokens, fault, whole, _, place, by omega⟩

/-- The flaw with the least index is the one that a splitting stops at. -/
theorem TokenStream.stops_at_first_flaw {chars : List Char} {tokens : List Token} {fault : Fault}
    (met : eventsFrom 0 chars = tokens.map .ok ++ [.error fault]) :
    ∃ index flaw, Text.HasFirstFlaw chars index flaw ∧ fault = flaw.fault index ∧
      eventsFrom 0 (chars.take index) = tokens.map .ok ++ [.ok (.endOfInput index)] := by
  obtain ⟨index, flaw, has, rfl, alone⟩ := hasFlaw_of_fault met
  refine ⟨index, flaw, ⟨has, fun other flaw' has' => ?_⟩, rfl, alone⟩
  obtain ⟨tokens', fault, met', place, points, within⟩ := has'.stops
  rw [met] at met'
  obtain rfl : flaw.fault index = fault := by
    simpa using congrArg List.getLast? met'
  rw [Text.Flaw.position?_fault, Option.some_inj] at points
  omega

/-- What a text with a flaw is split into. -/
theorem TokenStream.ofText_of_hasFirstFlaw {text : String} {index : Nat} {flaw : Text.Flaw}
    (first : Text.HasFirstFlaw text.toList index flaw) :
    ∃ tokens, ofText text = ⟨tokens, some (flaw.fault index)⟩ ∧
      ofText (String.ofList (text.toList.take index)) =
        ⟨tokens ++ [.endOfInput index], none⟩ := by
  obtain ⟨tokens, fault, met, _⟩ := first.1.stops
  obtain ⟨other, flaw', first', rfl, alone⟩ := stops_at_first_flaw met
  obtain rfl : index = other :=
    Nat.le_antisymm (first.2 other flaw' first'.1) (first'.2 index flaw first.1)
  have same : flaw.fault index = flaw'.fault index := by
    simpa [first.1.events] using first'.1.events index
  refine ⟨tokens, events_injective ?_, eq_of_events ?_⟩
  · rw [same]
    exact met
  · change eventsFrom 0 (String.ofList (text.toList.take index)).toList = _
    rw [String.toList_ofList, alone, List.map_append]
    rfl

/-- A text that is not split to its end has a first flaw, which its fault tells of. -/
theorem TokenStream.exists_hasFirstFlaw {text : String} {fault : Fault}
    (stopped : (ofText text).fault = some fault) :
    ∃ index flaw, Text.HasFirstFlaw text.toList index flaw ∧ fault = flaw.fault index := by
  have met : eventsFrom 0 text.toList = (ofText text).tokens.map .ok ++ [.error fault] := by
    change (ofText text).events = _
    rw [events, stopped]
    rfl
  obtain ⟨index, flaw, first, same, _⟩ := stops_at_first_flaw met
  exact ⟨index, flaw, first, same⟩

/-! ## The main statement -/

/-- **A splitting stops at the first flaw of its text, and only at a flaw.** A text is split without
a fault exactly when it has no flaw. A fault is reported exactly if it tells of the first flaw; the
tokens met until then are those of the text in front of the flaw, which is split without a fault.
What the digits of a run lead to when their value is computed from left to right, and given up as
soon as it is out of range, is decided by the value of the whole run. -/
theorem splitting_stops_at_first_flaw (text : String) :
    ((TokenStream.ofText text).fault = none ↔
      ∀ index flaw, ¬ Text.HasFlaw text.toList index flaw) ∧
    (∀ fault, (TokenStream.ofText text).fault = some fault ↔
      ∃ index flaw, Text.HasFirstFlaw text.toList index flaw ∧ fault = flaw.fault index) ∧
    (∀ index flaw, Text.HasFirstFlaw text.toList index flaw →
      TokenStream.ofText (String.ofList (text.toList.take index)) =
        ⟨(TokenStream.ofText text).tokens ++ [.endOfInput index], none⟩) ∧
    ∀ digits : List Char, literalValue? 0 digits =
      if (Nat.ofDigitChars 10 digits 0 : Int) ≤ Word.greatest then
        some (Nat.ofDigitChars 10 digits 0)
      else none := by
  refine ⟨⟨fun whole index flaw has => ?_, fun clean => ?_⟩, fun fault => ⟨?_, ?_⟩,
    fun index flaw first => ?_, fun digits => literalValue?_eq (by decide)⟩
  · obtain ⟨tokens, fault, met, _⟩ := has.stops
    have stopped : TokenStream.ofText text = ⟨tokens, some fault⟩ :=
      TokenStream.events_injective met
    rw [stopped] at whole
    cases whole
  · cases stopped : (TokenStream.ofText text).fault with
    | none => rfl
    | some fault =>
        obtain ⟨index, flaw, first, _⟩ := TokenStream.exists_hasFirstFlaw stopped
        exact absurd first.1 (clean index flaw)
  · exact TokenStream.exists_hasFirstFlaw
  · rintro ⟨index, flaw, first, rfl⟩
    obtain ⟨tokens, split, _⟩ := TokenStream.ofText_of_hasFirstFlaw first
    exact congrArg TokenStream.fault split
  · obtain ⟨tokens, split, front⟩ := TokenStream.ofText_of_hasFirstFlaw first
    have same : (TokenStream.ofText text).tokens = tokens := congrArg TokenStream.tokens split
    rw [same]
    exact front

/-- Of three flaws the first one is told: a run out of range, in front of a foreign character and of
a run with a zero in front that is out of range as well. -/
theorem first_flaw_of_long_run :
    let text := "12+ 9223372036854775808d? 09223372036854775808"
    let digits := "9223372036854775808"
    Text.HasFirstFlaw text.toList 4 (.tooLarge digits.toList) ∧
      (TokenStream.ofText text).fault = some (.numberTooLarge digits 4) ∧
        TokenStream.ofText "12+ " =
          ⟨(TokenStream.ofText text).tokens ++ [.endOfInput 4], none⟩ := by
  intro text digits
  obtain ⟨_, faults, front, _⟩ := splitting_stops_at_first_flaw text
  have stopped : (TokenStream.ofText text).fault = some (.numberTooLarge digits 4) := by
    decide +kernel
  obtain ⟨index, flaw, first, told⟩ := (faults _).mp stopped
  have found : index = 4 ∧ flaw = .tooLarge digits.toList := by
    cases flaw with
    | foreign c => cases told
    | leadingZero => cases told
    | tooLarge run =>
        obtain ⟨same, place⟩ := Fault.numberTooLarge.inj told
        rw [same, String.toList_ofList]
        exact ⟨by omega, rfl⟩
  obtain ⟨rfl, rfl⟩ := found
  have before : text.toList.take 4 = "12+ ".toList := by decide +kernel
  have met := front 4 _ first
  rw [before, String.ofList_toList] at met
  exact ⟨first, stopped, met⟩

end DiceNotation
