import DiceNotation.Proofs.TokenStream.Lexemes

/-!
# What a text lets a reader meet

A reader that asks a stream for one token after the other meets events: tokens, and at the end a
fault if there is one (`TokenStream.events`). This module says what the events of the characters
from some position on are (`TokenStream.eventsFrom`), and that they can be found piecewise.

There is an equation for each of the ways in which a text starts (`events_nil` to
`events_stranger`). The events of a text end in a fault or in the end of the input, and nowhere else
(`closed_eventsFrom`). Splitting two texts that are apart is splitting the one and then, in place of
its end, the other (`events_append`). Conversely, every event divides its text in two halves that
are apart, and stands at the start of the second (`events_split`). The event there is decided by the
lexeme that the half starts with (`events_of_lexeme`).
-/

set_option autoImplicit false

namespace DiceNotation

/-- A token, or a fault in its place. -/
abbrev Event : Type :=
  Except Fault Token

/-- The place that an event points at. -/
def Event.position? : Event → Option Int
  | .ok token => some token.position
  | .error fault => fault.position?

/-- The number or the fault of a run of digits points at its start. -/
theorem Event.position?_ofDigits {position : Nat} {digits : List Char} {event : Event}
    (number : Token.ofDigits position digits = event) :
    event.position? = some (position : Int) := by
  subst number
  unfold Token.ofDigits
  split
  · rfl
  · cases literalValue? 0 digits <;> rfl

theorem Token.kind_ofDigits {position : Nat} {digits : List Char} {token : Token}
    (number : Token.ofDigits position digits = .ok token) : token.kind = .number := by
  unfold Token.ofDigits at number
  split at number
  · cases number
  · split at number
    · cases number
      rfl
    · cases number

/-! ## The events of a text -/

namespace TokenStream

/-- The events of a stream in order. -/
def events (stream : TokenStream) : List Event :=
  stream.tokens.map .ok ++ stream.fault.toList.map .error

/-- The events of a stream tell which stream it is. -/
theorem events_injective {stream stream' : TokenStream} (same : stream.events = stream'.events) :
    stream = stream' := by
  obtain ⟨tokens, fault⟩ := stream
  obtain ⟨tokens', fault'⟩ := stream'
  induction tokens generalizing tokens' with
  | nil =>
      cases tokens' with
      | nil => cases fault <;> cases fault' <;> simp_all [events]
      | cons token others => cases fault <;> simp [events] at same
  | cons token rest ih =>
      cases tokens' with
      | nil => cases fault' <;> simp [events] at same
      | cons token' rest' =>
          obtain ⟨first, others⟩ := List.cons.inj same
          cases ih rest' others
          cases first
          rfl

/-- The events of the characters from a position on. -/
def eventsFrom (position : Nat) (chars : List Char) : List Event :=
  (scan position chars []).events

/-- One step of splitting a text that starts with a run of digits. -/
theorem scan_run {digits rest : List Char} (isRun : IsRun digits rest) (position : Nat)
    (read : List Token) :
    scan position (digits ++ rest) read =
      match Token.ofDigits position digits with
      | .ok token => scan (position + digits.length) rest (token :: read)
      | .error fault => ⟨read.reverse, some fault⟩ := by
  have taken := isRun.takeWhile_eq
  have left := isRun.dropWhile_eq
  cases digits with
  | nil => exact absurd rfl isRun.ne_nil
  | cons c others =>
      have digit : Text.isDigit c = true := isRun.digits c (List.mem_cons_self ..)
      rw [List.cons_append, List.takeWhile_cons_of_pos digit, List.cons_inj_right] at taken
      rw [List.cons_append, List.dropWhile_cons_of_pos digit] at left
      rw [List.cons_append, scan, Text.isSkipped_eq_false_of_isDigit digit, digit, taken, left]
      rfl

theorem scan_operator {c : Char} {operator : Operator}
    (spelled : Operator.ofChar? c = some operator) (position : Nat) (rest : List Char)
    (read : List Token) :
    scan position (c :: rest) read =
      scan (position + 1) rest (.operator position operator :: read) := by
  obtain ⟨skipped, digit⟩ := Text.isSkipped_isDigit_of_ofChar? spelled
  rw [scan, skipped, digit, spelled]
  rfl

theorem scan_stranger {c : Char} (stranger : IsStranger c) (position : Nat) (rest : List Char)
    (read : List Token) :
    scan position (c :: rest) read =
      ⟨read.reverse, some (.unexpectedCharacter c.toString position)⟩ := by
  rw [scan, stranger.skipped, stranger.digit, stranger.spelled]
  rfl

/-- The tokens already read come before the events of the characters that are left. -/
theorem events_scan (chars : List Char) : ∀ (position : Nat) (read : List Token),
    (scan position chars read).events = read.reverse.map .ok ++ eventsFrom position chars := by
  induction chars using text_induction with
  | nil => intro position read; simp [eventsFrom, scan, events]
  | blank c rest skipped ih =>
      intro position read
      rw [eventsFrom, scan, scan, if_pos skipped, if_pos skipped, ih, ih]
      simp
  | run digits rest isRun ih =>
      intro position read
      rw [eventsFrom, scan_run isRun, scan_run isRun]
      cases Token.ofDigits position digits with
      | ok token => simp [ih]
      | error fault => simp [events]
  | operator c operator rest spelled ih =>
      intro position read
      rw [eventsFrom, scan_operator spelled, scan_operator spelled, ih, ih]
      simp
  | stranger c rest stranger =>
      intro position read
      rw [eventsFrom, scan_stranger stranger, scan_stranger stranger]
      simp [events]

theorem events_nil (position : Nat) : eventsFrom position [] = [.ok (.endOfInput position)] := by
  simp [eventsFrom, scan, events]

theorem events_blank {c : Char} (skipped : Text.isSkipped c = true) (position : Nat)
    (rest : List Char) : eventsFrom position (c :: rest) = eventsFrom (position + 1) rest := by
  rw [eventsFrom, scan, if_pos skipped]
  rfl

theorem events_run {digits rest : List Char} (isRun : IsRun digits rest) (position : Nat) :
    eventsFrom position (digits ++ rest) =
      match Token.ofDigits position digits with
      | .ok token => .ok token :: eventsFrom (position + digits.length) rest
      | .error fault => [.error fault] := by
  rw [eventsFrom, scan_run isRun]
  cases Token.ofDigits position digits with
  | ok token => exact events_scan rest (position + digits.length) [token]
  | error fault => rfl

theorem events_operator {c : Char} {operator : Operator}
    (spelled : Operator.ofChar? c = some operator) (position : Nat) (rest : List Char) :
    eventsFrom position (c :: rest) =
      .ok (.operator position operator) :: eventsFrom (position + 1) rest := by
  rw [eventsFrom, scan_operator spelled]
  exact events_scan rest (position + 1) [.operator position operator]

theorem events_stranger {c : Char} (stranger : IsStranger c) (position : Nat) (rest : List Char) :
    eventsFrom position (c :: rest) = [.error (.unexpectedCharacter c.toString position)] := by
  rw [eventsFrom, scan_stranger stranger]
  rfl

/-- Tokens that do not end the input, and then the end of the input or a fault. -/
inductive Closed : List Event → Prop
  | endOfInput (place : Int) : Closed [.ok (.endOfInput place)]
  | fault (fault : Fault) : Closed [.error fault]
  | token {token : Token} {rest : List Event} :
      token.kind ≠ .endOfInput → Closed rest → Closed (.ok token :: rest)

/-- The events of a text are closed. -/
theorem closed_eventsFrom (chars : List Char) :
    ∀ position : Nat, Closed (eventsFrom position chars) := by
  induction chars using text_induction with
  | nil =>
      intro position
      rw [events_nil]
      exact .endOfInput position
  | blank c rest skipped ih =>
      intro position
      rw [events_blank skipped]
      exact ih (position + 1)
  | run digits rest isRun ih =>
      intro position
      rw [events_run isRun]
      cases number : Token.ofDigits position digits with
      | ok token => exact .token ((Token.kind_ofDigits number).trans_ne Kind.noConfusion) (ih _)
      | error fault => exact .fault fault
  | operator c operator rest spelled ih =>
      intro position
      rw [events_operator spelled]
      exact .token Kind.noConfusion (ih _)
  | stranger c rest stranger =>
      intro position
      rw [events_stranger stranger]
      exact .fault _

/-- A closed stream has an end of the input among its tokens, or has a fault behind tokens that do
not end the input. -/
theorem Closed.cases {tokens : List Token} {fault : Option Fault}
    (closed : Closed (events ⟨tokens, fault⟩)) :
    (fault = none ∧ ∃ token ∈ tokens, token.kind = .endOfInput) ∨
      ((∃ lexical, fault = some lexical) ∧ ∀ token ∈ tokens, token.kind ≠ .endOfInput) := by
  induction tokens with
  | nil =>
      cases fault with
      | none => cases closed
      | some fault => exact .inr ⟨⟨fault, rfl⟩, fun _ impossible => (nomatch impossible)⟩
  | cons token rest ih =>
      have met : events ⟨token :: rest, fault⟩ = .ok token :: events ⟨rest, fault⟩ := rfl
      rw [met] at closed
      generalize behind : events ⟨rest, fault⟩ = others at closed
      cases closed with
      | endOfInput place =>
          obtain ⟨_, absent⟩ := List.append_eq_nil_iff.mp behind
          exact .inl ⟨by simpa using absent, _, List.mem_cons_self .., rfl⟩
      | token inner closed =>
          rw [← behind] at closed
          rcases ih closed with ⟨absent, last, member, kind⟩ | ⟨present, inside⟩
          · exact .inl ⟨absent, last, List.mem_cons_of_mem _ member, kind⟩
          · exact .inr ⟨present, List.forall_mem_cons.mpr ⟨inner, inside⟩⟩

/-! ## One half after the other -/

/-- Events with others in place of the end of the input. Nothing is met behind a fault. -/
def replaceEnd (later : List Event) : List Event → List Event
  | [] => []
  | .error fault :: _ => [.error fault]
  | .ok token :: rest =>
    if token.kind = .endOfInput then later else .ok token :: replaceEnd later rest

theorem replaceEnd_token {token : Token} (inner : token.kind ≠ .endOfInput)
    (later rest : List Event) :
    replaceEnd later (.ok token :: rest) = .ok token :: replaceEnd later rest :=
  if_neg inner

/-- Closed events that end in the end of the input have no other place where they end. -/
theorem replaceEnd_of_closed {before : List Event} {place : Int} (later : List Event)
    (closed : Closed (before ++ [.ok (.endOfInput place)])) :
    replaceEnd later (before ++ [.ok (.endOfInput place)]) = before ++ later := by
  induction before with
  | nil => exact if_pos rfl
  | cons event before ih =>
      generalize behind : before ++ [.ok (.endOfInput place)] = rest at closed ih
      rw [List.cons_append, behind] at closed ⊢
      cases closed with
      | endOfInput _ => simp at behind
      | fault _ => simp at behind
      | token inner closed => rw [replaceEnd_token inner, ih closed, List.cons_append]

/-- **Splitting in halves.** If no run of digits reaches from one text into another, splitting the
first followed by the second meets the events of the first with those of the second in place of its
end. -/
theorem events_append {first second : List Char} (apart : Apart first second) (position : Nat) :
    eventsFrom position (first ++ second) =
      replaceEnd (eventsFrom (position + first.length) second) (eventsFrom position first) := by
  induction first using text_induction generalizing position with
  | nil =>
      rw [events_nil]
      exact (if_pos rfl).symm
  | blank c rest skipped ih =>
      rw [List.cons_append, events_blank skipped, events_blank skipped, ih apart.of_cons,
        List.length_cons, Nat.add_right_comm, Nat.add_assoc]
  | run digits rest isRun ih =>
      rw [List.append_assoc, events_run isRun, events_run (isRun.append apart)]
      cases number : Token.ofDigits position digits with
      | error fault => rfl
      | ok token =>
          simp only
          have inner : token.kind ≠ .endOfInput :=
            (Token.kind_ofDigits number).trans_ne Kind.noConfusion
          rw [replaceEnd_token inner, ih apart.of_append, List.length_append, Nat.add_assoc]
  | operator c operator rest spelled ih =>
      rw [List.cons_append, events_operator spelled, events_operator spelled,
        replaceEnd_token Kind.noConfusion, ih apart.of_cons, List.length_cons, Nat.add_right_comm,
        Nat.add_assoc]
  | stranger c rest stranger =>
      rw [List.cons_append, events_stranger stranger, events_stranger stranger]
      rfl

/-- What is met in a first half without a fault is met before the second. -/
theorem events_append_of_eq {first second : List Char} (apart : Apart first second) {position : Nat}
    {before : List Event} {place : Int}
    (alone : eventsFrom position first = before ++ [.ok (.endOfInput place)]) :
    eventsFrom position (first ++ second) =
      before ++ eventsFrom (position + first.length) second := by
  have closed := closed_eventsFrom first position
  rw [alone] at closed
  rw [events_append apart, alone, replaceEnd_of_closed _ closed]

/-- A text in two halves for an event: the second half starts with a lexeme or is empty, the event
points at its start, and the events before it are those of the first half. -/
def Divides (position : Nat) (before : List Event) (event : Event) (chars : List Char) : Prop :=
  ∃ first second, chars = first ++ second ∧ Apart first second ∧
    (second = [] ∨ StartsWithLexeme second) ∧
    eventsFrom position first = before ++ [.ok (.endOfInput (position + first.length : Nat))] ∧
    event.position? = some (position + first.length : Nat)

theorem Divides.here {position : Nat} {event : Event} {chars : List Char}
    (starts : chars = [] ∨ StartsWithLexeme chars)
    (place : event.position? = some (position : Int)) :
    Divides position [] event chars :=
  ⟨[], chars, rfl, apart_nil _, starts, events_nil position, place⟩

/-- A character in front that is no digit moves the place, and may be met before. -/
theorem Divides.cons {position : Nat} {before : List Event} {event : Event} {c : Char}
    {rest : List Char} (divides : Divides (position + 1) before event rest) (front : List Event)
    (digit : Text.isDigit c = false)
    (met : ∀ others,
      eventsFrom position (c :: others) = front ++ eventsFrom (position + 1) others) :
    Divides position (front ++ before) event (c :: rest) := by
  obtain ⟨first, second, rfl, apart, starts, alone, place⟩ := divides
  have shift : position + 1 + first.length = position + (c :: first).length := by
    rw [List.length_cons]; omega
  rw [shift] at alone place
  refine ⟨c :: first, second, rfl, apart.cons digit, starts, ?_, place⟩
  rw [met, alone, List.append_assoc]

theorem Divides.run {position : Nat} {before : List Event} {event : Event} {digits rest : List Char}
    {token : Token} (divides : Divides (position + digits.length) before event rest)
    (isRun : IsRun digits rest) (number : Token.ofDigits position digits = .ok token) :
    Divides position (.ok token :: before) event (digits ++ rest) := by
  obtain ⟨first, second, rfl, apart, starts, alone, place⟩ := divides
  rw [Nat.add_assoc, ← List.length_append] at alone place
  refine ⟨digits ++ first, second, (List.append_assoc ..).symm, ?_, starts, ?_, place⟩
  · refine apart.append fun empty => ?_
    rw [empty, List.nil_append] at isRun
    exact isRun.apart
  · rw [events_run isRun.of_append, number]
    exact congrArg _ alone

/-- **Every event divides its text.** -/
theorem events_split {chars : List Char} : ∀ {position : Nat} {before after : List Event}
    {event : Event}, eventsFrom position chars = before ++ event :: after →
      Divides position before event chars := by
  induction chars using text_induction with
  | nil =>
      intro position before after event met
      rw [events_nil] at met
      cases before with
      | nil =>
          cases met
          exact .here (.inl rfl) rfl
      | cons head before => simp at met
  | blank c rest skipped ih =>
      intro position before after event met
      have onward := fun others => events_blank skipped position others
      rw [onward] at met
      exact (ih met).cons [] (Text.isDigit_eq_false_of_isSkipped skipped) onward
  | run digits rest isRun ih =>
      intro position before after event met
      rw [events_run isRun] at met
      have starts : StartsWithLexeme (digits ++ rest) := ⟨digits, rest, rfl, .run isRun⟩
      cases number : Token.ofDigits position digits with
      | error fault =>
          simp only [number] at met
          cases before with
          | nil =>
              cases met
              exact .here (.inr starts) (Event.position?_ofDigits number)
          | cons head before => simp at met
      | ok token =>
          simp only [number] at met
          cases before with
          | nil =>
              cases met
              exact .here (.inr starts) (Event.position?_ofDigits number)
          | cons head before =>
              obtain ⟨rfl, behind⟩ := List.cons.inj met
              exact (ih behind).run isRun number
  | operator c operator rest spelled ih =>
      intro position before after event met
      have onward := fun others => events_operator spelled position others
      obtain ⟨skipped, digit⟩ := Text.isSkipped_isDigit_of_ofChar? spelled
      rw [onward] at met
      cases before with
      | nil =>
          cases met
          exact .here (.inr ⟨[c], rest, rfl, .single rest skipped digit⟩) rfl
      | cons head before =>
          obtain ⟨rfl, behind⟩ := List.cons.inj met
          exact (ih behind).cons [_] digit onward
  | stranger c rest stranger =>
      intro position before after event met
      rw [events_stranger stranger] at met
      cases before with
      | nil =>
          cases met
          exact .here (.inr ⟨[c], rest, rfl, .single rest stranger.skipped stranger.digit⟩) rfl
      | cons head before => simp at met

/-! ## The event at a lexeme -/

theorem events_leadingZero {d : Char} (digit : Text.isDigit d = true) (position : Nat)
    (rest : List Char) :
    eventsFrom position ('0' :: d :: rest) = [.error (.leadingZero position)] := by
  have isRun := isRun_takeWhile (show Text.isDigit '0' = true by decide) (d :: rest)
  have whole := events_run isRun position
  rw [List.cons_append, List.takeWhile_append_dropWhile, List.takeWhile_cons_of_pos digit] at whole
  exact whole

/-- **The event at the start of a lexeme does not depend on what is behind it**, as long as no digit
continues it. -/
theorem events_of_lexeme {lexeme rest more : List Char} (found : Lexeme lexeme rest)
    (apart : Apart lexeme more) {position : Nat} {event : Event} {after : List Event}
    (met : eventsFrom position (lexeme ++ rest) = event :: after) :
    ∃ after', eventsFrom position (lexeme ++ more) = event :: after' := by
  cases found with
  | @single c rest skipped digit =>
      simp only [List.cons_append, List.nil_append] at met ⊢
      cases spelled : Operator.ofChar? c with
      | some operator =>
          rw [events_operator spelled] at met ⊢
          cases met
          exact ⟨_, rfl⟩
      | none =>
          have stranger : IsStranger c := ⟨skipped, digit, spelled⟩
          rw [events_stranger stranger] at met ⊢
          cases met
          exact ⟨_, rfl⟩
  | @leadingZero d rest digit =>
      simp only [List.cons_append, List.nil_append] at met ⊢
      rw [events_leadingZero digit] at met ⊢
      cases met
      exact ⟨_, rfl⟩
  | run isRun =>
      have isRun' : IsRun lexeme more := isRun.of_apart apart
      rw [events_run isRun] at met
      rw [events_run isRun']
      cases number : Token.ofDigits position lexeme with
      | ok token =>
          rw [number] at met
          cases met
          exact ⟨_, rfl⟩
      | error fault =>
          rw [number] at met
          cases met
          exact ⟨_, rfl⟩

end TokenStream

end DiceNotation
