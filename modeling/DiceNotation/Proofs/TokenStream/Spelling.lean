import DiceNotation.Proofs.TokenStream.Events
import DiceNotation.Proofs.TokenStream.Numerals

/-!
# Spellings

A text spells a list of tokens if each token is written at its place and only white space is written
elsewhere. An operator is written with its character, the die with either of two, and a number with
its numeral. What a token is written with is its slice of the text. The slices follow one another
without an overlap, and two numbers that follow one another have white space between them. At the
length of the text stands the end of the input (`IsSpelling`).

Splitting a text gives back the tokens that it spells (`ofText_eq_iff_isSpelling`). So a text that
can be split spells exactly one list of tokens, and a list of tokens is what every one of its
spellings is split into.

The conditions of a spelling speak of all positions of the text at once. A layout cuts the text
instead: white space, then the slice of the first token, then a layout of the others (`Layout`).
This is the form that a splitting can follow.
-/

set_option autoImplicit false

namespace DiceNotation

/-- The characters that spell an operator. -/
def Operator.spellings : Operator → List Char
  | plus => ['+']
  | minus => ['-']
  | die => ['d', 'D']

theorem Operator.ofChar?_eq_some_iff {c : Char} {operator : Operator} :
    Operator.ofChar? c = some operator ↔ c ∈ operator.spellings := by
  constructor
  · intro spelled
    unfold Operator.ofChar? at spelled
    split at spelled <;> cases spelled <;> simp [spellings]
  · intro member
    cases operator <;> simp only [spellings, List.mem_cons, List.not_mem_nil, or_false] at member
    · rw [member]; rfl
    · rw [member]; rfl
    · rcases member with rfl | rfl <;> rfl

/-- White space: space, tab, carriage return and line feed. -/
def IsSpace (c : Char) : Prop :=
  c ∈ [' ', '\t', '\r', '\n']

theorem isSkipped_iff {c : Char} : Text.isSkipped c = true ↔ IsSpace c := by
  simp [Text.isSkipped, IsSpace, or_assoc]

namespace Token

/-- The characters with which a token is written. The end of the input is not written. -/
def IsWritten (token : Token) (slice : List Char) : Prop :=
  match token.kind with
  | .number => ∃ value : Nat, (value : Int) ≤ Word.greatest ∧ token.value = some (value : Int) ∧
      slice = Nat.toDigits 10 value
  | .operator operator => token.value = none ∧ ∃ c ∈ operator.spellings, slice = [c]
  | .endOfInput => False

/-- The number of characters with which a token is written. -/
def width (token : Token) : Nat :=
  match token.kind with
  | .number => (Nat.toDigits 10 (token.value.getD 0).toNat).length
  | .operator _ => 1
  | .endOfInput => 0

/-- The position at which the slice of a token ends. -/
def stop (token : Token) : Int :=
  token.position + token.width

end Token

/-- The characters from a position on spell some tokens, none of which is the end of the input. -/
structure Spells (position : Nat) (chars : List Char) (tokens : List Token) : Prop where
  /-- Every token is written at its place. -/
  written : ∀ token ∈ tokens, ∃ start : Nat, token.position = (position + start : Nat) ∧
    token.IsWritten ((chars.drop start).take token.width)
  /-- The slices follow one another. -/
  ordered : tokens.Pairwise fun token later => token.stop ≤ later.position
  /-- A number is not written right behind another. -/
  separate : tokens.Pairwise fun token later =>
    token.kind = .number → later.kind = .number → token.stop ≠ later.position
  /-- White space is written everywhere else. -/
  elsewhere : ∀ (index : Nat) (c : Char), chars[index]? = some c →
    (∀ token ∈ tokens, ¬ (token.position ≤ (position + index : Nat) ∧
      (position + index : Nat) < token.stop)) → IsSpace c

/-- **A text is a spelling of some tokens**: the last of them is the end of the input, at the length
of the text, and the text spells the others. -/
def IsSpelling (text : String) (tokens : List Token) : Prop :=
  ∃ inner, tokens = inner ++ [.endOfInput text.length] ∧ Spells 0 text.toList inner

/-! ## Layouts -/

/-- The characters from a position on, cut into white space and the slices of some tokens. -/
inductive Layout : Nat → List Char → List Token → Prop
  | nil {position : Nat} {gap : List Char} : (∀ c ∈ gap, IsSpace c) → Layout position gap []
  | cons {position : Nat} {gap slice rest : List Char} {token : Token} {tokens : List Token} :
      (∀ c ∈ gap, IsSpace c) → token.position = (position + gap.length : Nat) →
        token.IsWritten slice →
        (token.kind = .number → ∀ c ∈ rest.head?, Text.isDigit c = false) →
        Layout (position + gap.length + slice.length) rest tokens →
        Layout position (gap ++ slice ++ rest) (token :: tokens)

namespace Token

variable {token : Token} {slice : List Char}

theorem IsWritten.length_eq (written : token.IsWritten slice) : slice.length = token.width := by
  unfold IsWritten at written
  unfold width
  split at written
  · obtain ⟨value, _, valued, rfl⟩ := written
    simp [valued]
  · obtain ⟨_, c, _, rfl⟩ := written
    rfl
  · exact written.elim

theorem IsWritten.ne_nil (written : token.IsWritten slice) : slice ≠ [] := by
  unfold IsWritten at written
  split at written
  · obtain ⟨value, _, _, rfl⟩ := written
    exact Nat.toDigits_ne_nil
  · obtain ⟨_, c, _, rfl⟩ := written
    exact List.cons_ne_nil _ _
  · exact written.elim

/-- A slice starts with a digit if it is that of a number, and only then. -/
theorem IsWritten.isDigit_head (written : token.IsWritten slice) {c : Char}
    (first : slice.head? = some c) : Text.isDigit c = true ↔ token.kind = .number := by
  unfold IsWritten at written
  split at written
  · rename_i kind
    obtain ⟨value, _, _, rfl⟩ := written
    have member : c ∈ Nat.toDigits 10 value := List.mem_of_mem_head? first
    simp [kind, Text.isDigit_of_mem_toDigits member]
  · rename_i operator kind
    obtain ⟨_, other, spelled, rfl⟩ := written
    cases first
    have plain := Text.isSkipped_isDigit_of_ofChar? (Operator.ofChar?_eq_some_iff.mpr spelled)
    simp [kind, plain.2]
  · exact written.elim

/-- The character at the place of a token tells whether the token is a number. -/
theorem IsWritten.exists_first {chars : List Char} {start : Nat}
    (written : token.IsWritten ((chars.drop start).take token.width)) :
    ∃ c, chars[start]? = some c ∧ (Text.isDigit c = true ↔ token.kind = .number) := by
  have present : token.width ≠ 0 := by
    intro empty
    rw [empty, List.take_zero] at written
    exact written.ne_nil rfl
  obtain ⟨c, others, same⟩ := List.exists_cons_of_ne_nil written.ne_nil
  have first : ((chars.drop start).take token.width).head? = some c := by rw [same]; rfl
  have here : chars[start]? = some c := by
    rw [List.head?_take, if_neg present, List.head?_drop] at first
    exact first
  exact ⟨c, here, written.isDigit_head first⟩

end Token

namespace TokenStream

/-- White space moves the place of what follows. -/
theorem events_spaces {gap : List Char} (spaces : ∀ c ∈ gap, IsSpace c) (position : Nat)
    (rest : List Char) :
    eventsFrom position (gap ++ rest) = eventsFrom (position + gap.length) rest := by
  induction gap generalizing position with
  | nil => rfl
  | cons c gap ih =>
      obtain ⟨space, others⟩ := List.forall_mem_cons.mp spaces
      rw [List.cons_append, events_blank (isSkipped_iff.mpr space), ih others, List.length_cons,
        Nat.add_assoc, Nat.add_comm 1]

/-- A slice, cut off where its token ends, is split into its token. -/
theorem events_slice {position : Nat} {slice rest : List Char} {token : Token}
    (placed : token.position = (position : Int)) (written : token.IsWritten slice)
    (cut : token.kind = .number → ∀ c ∈ rest.head?, Text.isDigit c = false) :
    eventsFrom position (slice ++ rest) =
      .ok token :: eventsFrom (position + slice.length) rest := by
  have present : slice ≠ [] := written.ne_nil
  obtain ⟨kind, place, value⟩ := token
  obtain rfl : place = position := placed
  cases kind with
  | number =>
      obtain ⟨number, inside, rfl, rfl⟩ := written
      have digits : ∀ c ∈ Nat.toDigits 10 number, Text.isDigit c = true :=
        fun c member => Text.isDigit_of_mem_toDigits member
      have token :
          Token.ofDigits position (Nat.toDigits 10 number) = .ok (.number position number) :=
        (Token.ofDigits_eq_ok_iff present digits).mpr ⟨number, rfl, inside, rfl⟩
      rw [events_run ⟨present, digits, cut rfl⟩, token]
      rfl
  | operator operator =>
      obtain ⟨rfl, c, spelled, rfl⟩ := written
      exact events_operator (Operator.ofChar?_eq_some_iff.mpr spelled) position rest
  | endOfInput => exact written.elim

/-- **Splitting follows a layout.** -/
theorem eventsFrom_of_layout {position : Nat} {chars : List Char} {tokens : List Token}
    (layout : Layout position chars tokens) :
    eventsFrom position chars =
      tokens.map .ok ++ [.ok (.endOfInput (position + chars.length : Nat))] := by
  induction layout with
  | @nil position gap spaces =>
      have only := events_spaces spaces position []
      rw [List.append_nil, events_nil] at only
      exact only
  | @cons position gap slice rest token tokens spaces placed written cut _ ih =>
      rw [List.append_assoc, events_spaces spaces, events_slice placed written cut, ih]
      simp only [List.map_cons, List.cons_append, List.length_append]
      rw [← Nat.add_assoc, ← Nat.add_assoc]

end TokenStream

/-- White space in front belongs to the first gap. -/
theorem Layout.space {position : Nat} {c : Char} {rest : List Char} {tokens : List Token}
    (layout : Layout (position + 1) rest tokens) (space : IsSpace c) :
    Layout position (c :: rest) tokens := by
  cases layout with
  | nil spaces => exact .nil (List.forall_mem_cons.mpr ⟨space, spaces⟩)
  | @cons _ gap slice rest token tokens spaces placed written cut layout =>
      have shift : position + 1 + gap.length = position + (c :: gap).length := by
        rw [List.length_cons]; omega
      rw [shift] at placed layout
      exact .cons (List.forall_mem_cons.mpr ⟨space, spaces⟩) placed written cut layout

/-- A slice in front is that of the first token. -/
theorem Layout.slice {position : Nat} {slice rest : List Char} {token : Token}
    {tokens : List Token} (layout : Layout (position + slice.length) rest tokens)
    (placed : token.position = (position : Int)) (written : token.IsWritten slice)
    (cut : token.kind = .number → ∀ c ∈ rest.head?, Text.isDigit c = false) :
    Layout position (slice ++ rest) (token :: tokens) :=
  @Layout.cons position [] slice rest token tokens (List.forall_mem_nil _) placed written cut layout

namespace TokenStream

/-- **What a text is split into lays it out.** -/
theorem layout_of_eventsFrom {chars : List Char} : ∀ {position : Nat} {tokens : List Token}
    {place : Int}, eventsFrom position chars = tokens.map .ok ++ [.ok (.endOfInput place)] →
      Layout position chars tokens := by
  induction chars using text_induction with
  | nil =>
      intro position tokens place met
      rw [events_nil] at met
      cases tokens with
      | nil => exact .nil (List.forall_mem_nil _)
      | cons token tokens => simp at met
  | blank c rest skipped ih =>
      intro position tokens place met
      rw [events_blank skipped] at met
      exact (ih met).space (isSkipped_iff.mp skipped)
  | run digits rest isRun ih =>
      intro position tokens place met
      rw [events_run isRun] at met
      cases number : Token.ofDigits position digits with
      | error fault =>
          rw [number] at met
          cases tokens <;> simp at met
      | ok first =>
          simp only [number] at met
          obtain ⟨value, numeral, inside, rfl⟩ :=
            (Token.ofDigits_eq_ok_iff isRun.ne_nil isRun.digits).mp number
          cases tokens with
          | nil => cases met
          | cons token tokens =>
              obtain ⟨same, behind⟩ := List.cons.inj met
              cases same
              exact (ih behind).slice rfl ⟨value, inside, rfl, numeral⟩ fun _ => isRun.maximal
  | operator c operator rest spelled ih =>
      intro position tokens place met
      rw [events_operator spelled] at met
      cases tokens with
      | nil => cases met
      | cons token tokens =>
          obtain ⟨same, behind⟩ := List.cons.inj met
          cases same
          have written : (Token.operator position operator).IsWritten [c] :=
            ⟨rfl, c, Operator.ofChar?_eq_some_iff.mp spelled, rfl⟩
          exact (ih behind).slice rfl written fun impossible => (nomatch impossible)
  | stranger c rest stranger =>
      intro position tokens place met
      rw [events_stranger stranger] at met
      cases tokens <;> simp at met

/-- A stream that meets only tokens has these tokens and no fault. -/
theorem eq_of_events {stream : TokenStream} {tokens : List Token}
    (met : stream.events = tokens.map .ok) : stream = ⟨tokens, none⟩ :=
  events_injective (met.trans (List.append_nil _).symm)

/-- Closed events without a fault end in the end of the input. -/
theorem Closed.exists_endOfInput {tokens : List Token} (closed : Closed (tokens.map .ok)) :
    ∃ inner place, tokens = inner ++ [.endOfInput place] := by
  induction tokens with
  | nil => cases closed
  | cons token rest ih =>
      generalize behind : rest.map (Except.ok (ε := Fault)) = others at closed ih
      rw [List.map_cons, behind] at closed
      cases closed with
      | endOfInput place =>
          rw [List.map_eq_nil_iff] at behind
          exact ⟨[], place, by rw [behind, List.nil_append]⟩
      | token _ closed =>
          obtain ⟨inner, place, rfl⟩ := ih closed
          exact ⟨token :: inner, place, rfl⟩

end TokenStream

/-! ## Layouts and spellings -/

/-- A gap and a slice in front of what spells some tokens spell one token more. -/
theorem Spells.cons {position : Nat} {gap slice rest : List Char} {token : Token}
    {tokens : List Token} (spells : Spells (position + gap.length + slice.length) rest tokens)
    (spaces : ∀ c ∈ gap, IsSpace c) (placed : token.position = (position + gap.length : Nat))
    (written : token.IsWritten slice)
    (cut : token.kind = .number → ∀ c ∈ rest.head?, Text.isDigit c = false) :
    Spells position (gap ++ slice ++ rest) (token :: tokens) := by
  have length : slice.length = token.width := written.length_eq
  have stop : token.stop = (position + gap.length + slice.length : Nat) := by
    rw [Token.stop, placed, length]
    omega
  refine ⟨List.forall_mem_cons.mpr ⟨⟨gap.length, placed, ?_⟩, fun later member => ?_⟩,
    List.pairwise_cons.mpr ⟨fun later member => ?_, spells.ordered⟩,
    List.pairwise_cons.mpr ⟨fun later member number numberLater touch => ?_, spells.separate⟩,
    fun index c here uncovered => ?_⟩
  · rw [List.append_assoc, List.drop_left, ← length, List.take_left]
    exact written
  · obtain ⟨start, placedLater, writtenLater⟩ := spells.written later member
    refine ⟨(gap ++ slice).length + start, ?_, ?_⟩
    · rw [placedLater, List.length_append]
      omega
    · rw [List.drop_length_add_append]
      exact writtenLater
  · obtain ⟨start, placedLater, _⟩ := spells.written later member
    omega
  · -- a number that touches this one would start with a digit right behind it
    obtain ⟨start, placedLater, writtenLater⟩ := spells.written later member
    obtain rfl : start = 0 := by omega
    obtain ⟨c, first, digit⟩ := writtenLater.exists_first
    rw [← List.head?_eq_getElem?] at first
    have plain := cut number c first
    rw [digit.mpr numberLater] at plain
    cases plain
  · obtain ⟨notHere, notLater⟩ := List.forall_mem_cons.mp uncovered
    rcases Nat.lt_or_ge index gap.length with early | late
    · rw [List.append_assoc, List.getElem?_append_left early] at here
      exact spaces c (List.mem_of_getElem? here)
    · have behind : (gap ++ slice).length ≤ index := by
        rw [List.length_append]
        omega
      rw [List.getElem?_append_right behind] at here
      refine spells.elsewhere _ c here fun later member => ?_
      have := notLater later member
      rw [List.length_append] at behind ⊢
      omega

/-- **A layout spells its tokens.** -/
theorem Layout.spells {position : Nat} {chars : List Char} {tokens : List Token}
    (layout : Layout position chars tokens) : Spells position chars tokens := by
  induction layout with
  | nil spaces =>
      exact ⟨List.forall_mem_nil _, .nil, .nil,
        fun index c here _ => spaces c (List.mem_of_getElem? here)⟩
  | cons spaces placed written cut _ ih => exact ih.cons spaces placed written cut

namespace Spells

variable {position start : Nat} {chars : List Char} {token : Token} {tokens : List Token}

/-- Only white space is written before the first token. -/
theorem gap (spells : Spells position chars (token :: tokens))
    (placed : token.position = (position + start : Nat)) : ∀ c ∈ chars.take start, IsSpace c := by
  intro c member
  obtain ⟨index, here⟩ := List.mem_iff_getElem?.mp member
  rw [List.getElem?_take] at here
  split at here
  · refine spells.elsewhere index c here
      (List.forall_mem_cons.mpr ⟨by omega, fun later member => ?_⟩)
    have behind := (List.pairwise_cons.mp spells.ordered).1 later member
    rw [Token.stop] at behind
    omega
  · cases here

/-- Behind a number no digit is written. -/
theorem cut (spells : Spells position chars (token :: tokens))
    (placed : token.position = (position + start : Nat)) (number : token.kind = .number) :
    ∀ c ∈ (chars.drop (start + token.width)).head?, Text.isDigit c = false := by
  intro c first
  have here : chars[start + token.width]? = some c := by rw [← List.head?_drop]; exact first
  cases digit : Text.isDigit c with
  | false => rfl
  | true =>
      -- a digit is no white space, so it belongs to a token, and this token is another number
      have noSpace : ¬ IsSpace c := by
        intro space
        rw [Text.isDigit_eq_false_of_isSkipped (isSkipped_iff.mpr space)] at digit
        cases digit
      have covered := mt (spells.elsewhere _ c here) noSpace
      simp only [not_forall, not_not, List.mem_cons] at covered
      obtain ⟨later, rfl | member, low, high⟩ := covered
      · rw [Token.stop, placed] at high
        omega
      · have behind := (List.pairwise_cons.mp spells.ordered).1 later member
        have apart := (List.pairwise_cons.mp spells.separate).1 later member number
        rw [Token.stop, placed] at behind apart
        obtain ⟨place, placedLater, writtenLater⟩ :=
          spells.written later (List.mem_cons_of_mem _ member)
        obtain rfl : place = start + token.width := by omega
        obtain ⟨other, there, kind⟩ := writtenLater.exists_first
        obtain rfl : other = c := Option.some.inj (there.symm.trans here)
        exact absurd (by omega) (apart (kind.mp digit))

/-- What is written behind the first token spells the others. -/
theorem tail (spells : Spells position chars (token :: tokens))
    (placed : token.position = (position + start : Nat)) :
    Spells (position + start + token.width) (chars.drop (start + token.width)) tokens := by
  obtain ⟨behind, ordered⟩ := List.pairwise_cons.mp spells.ordered
  refine ⟨fun later member => ?_, ordered, (List.pairwise_cons.mp spells.separate).2,
    fun index c here uncovered => ?_⟩
  · obtain ⟨place, placedLater, writtenLater⟩ :=
      spells.written later (List.mem_cons_of_mem _ member)
    have follows := behind later member
    rw [Token.stop, placed] at follows
    have shift : start + token.width + (place - (start + token.width)) = place := by omega
    refine ⟨place - (start + token.width), by omega, ?_⟩
    rw [List.drop_drop, shift]
    exact writtenLater
  · rw [List.getElem?_drop] at here
    refine spells.elsewhere _ c here (List.forall_mem_cons.mpr ⟨?_, fun later member => ?_⟩)
    · rw [Token.stop, placed]
      omega
    · have := uncovered later member
      omega

end Spells

/-- **What spells some tokens can be laid out.** -/
theorem Spells.layout {tokens : List Token} : ∀ {position : Nat} {chars : List Char},
    Spells position chars tokens → Layout position chars tokens := by
  induction tokens with
  | nil =>
      intro position chars spells
      refine .nil fun c member => ?_
      obtain ⟨index, here⟩ := List.mem_iff_getElem?.mp member
      exact spells.elsewhere index c here (List.forall_mem_nil _)
  | cons token tokens ih =>
      intro position chars spells
      obtain ⟨start, placed, written⟩ := spells.written token (List.mem_cons_self ..)
      have within : start ≤ chars.length := by
        obtain ⟨c, here, _⟩ := written.exists_first
        exact Nat.le_of_lt (List.getElem?_eq_some_iff.mp here).1
      have length : (chars.take start).length = start := List.length_take_of_le within
      have whole : chars.take start ++ (chars.drop start).take token.width ++
          chars.drop (start + token.width) = chars := by
        rw [List.append_assoc, ← List.drop_drop, List.take_append_drop, List.take_append_drop]
      rw [← whole]
      refine .cons (spells.gap placed) (by rw [length]; exact placed) written (spells.cut placed) ?_
      rw [length, written.length_eq]
      exact ih (spells.tail placed)

/-! ## The main statement -/

/-- **A text is split into some tokens, without a fault, exactly when it spells them.** -/
theorem ofText_eq_iff_isSpelling (text : String) (tokens : List Token) :
    TokenStream.ofText text = ⟨tokens, none⟩ ↔ IsSpelling text tokens := by
  constructor
  · intro split
    have met : TokenStream.eventsFrom 0 text.toList = tokens.map .ok := by
      show (TokenStream.ofText text).events = _
      rw [split]
      exact List.append_nil _
    have closed := TokenStream.closed_eventsFrom text.toList 0
    rw [met] at closed
    obtain ⟨inner, place, rfl⟩ := closed.exists_endOfInput
    rw [List.map_append] at met
    have layout := TokenStream.layout_of_eventsFrom met
    have ends := TokenStream.eventsFrom_of_layout layout
    rw [met] at ends
    have same := List.append_cancel_left ends
    obtain rfl : place = (text.length : Int) := by
      simpa [Token.endOfInput, String.length_toList] using same
    exact ⟨inner, rfl, layout.spells⟩
  · rintro ⟨inner, rfl, spells⟩
    have met := TokenStream.eventsFrom_of_layout spells.layout
    refine TokenStream.eq_of_events ?_
    show TokenStream.eventsFrom 0 text.toList = _
    rw [met, List.map_append, Nat.zero_add, String.length_toList]
    rfl

end DiceNotation
