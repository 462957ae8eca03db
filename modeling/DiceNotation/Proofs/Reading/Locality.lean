import DiceNotation.Expr.Reader
import DiceNotation.Proofs.TokenStream.Events
import Mathlib

/-!
# Where a reading is decided

A reader takes a stream one token after the other and stops at the first one that decides. Either
some token decides, whatever stands behind it, or every token is taken and the outcome hangs on
what lies behind them (`read_cases`).

For the reading of a text this gives two statements, which `parse_reports_first_fault` puts
together. A reading reports the first fault that it meets: a fault of the reader over the tokens
before a lexical fault hides that one, and where the reader has no fault of its own the lexical
fault is reported. And a fault is local. It points at the end of the text or at a lexeme, and a text
that agrees with the first one up to the end of that lexeme has the same fault, whatever follows.

The second statement goes through events. The event that a fault comes from divides the text
(`exists_event_of_fault`), and what it is and what is met before it depend on nothing behind its
lexeme.
-/

set_option autoImplicit false

namespace DiceNotation

/-! ## The token that decides -/

/-- An outcome that fits a token: an expression ends at an end of the input, and a fault has found
the token. -/
def Token.Explains (token : Token) : Except Fault Expr → Prop
  | .ok _ => token.kind = .endOfInput
  | .error fault => fault.found? = some token

namespace Reader

variable {limit : DepthLimit}

/-- A step that fails has found its token. -/
theorem found?_of_step {reader : Reader} {token : Token} {fault : Fault}
    (fails : reader.step limit token = .error fault) : fault.found? = some token := by
  cases reader with
  | operand pending =>
      simp only [step] at fails
      split at fails
      · cases fails
        rfl
      · split at fails <;> cases fails <;> rfl
  | operator left pending =>
      simp only [step] at fails
      split at fails <;> cases fails
      rfl

/-- An end of the input that is not the end of an expression is found. -/
theorem found?_of_finish {reader : Reader} {token : Token} {fault : Fault}
    (fails : reader.finish limit token = .error fault) : fault.found? = some token := by
  cases reader with
  | operand pending =>
      simp only [finish] at fails
      split at fails <;> cases fails <;> rfl
  | operator left pending => cases fails

/-- **A run is decided by a token or takes them all.** In the first case nothing behind the token
has a part in the reading; in the second the reading goes on with what is behind them all. -/
theorem run_cases (tokens : List Token) : ∀ (reader : Reader) (position : Int) (pulled : Nat),
    (∃ before token after outcome, tokens = before ++ token :: after ∧ token.Explains outcome ∧
      ∀ behind after', reader.run limit behind position pulled (before ++ token :: after') =
        ⟨outcome, pulled + before.length + 1⟩) ∨
    (∀ token ∈ tokens, token.kind ≠ .endOfInput) ∧
      ∃ (last : Reader) (place : Int), ∀ behind, reader.run limit behind position pulled tokens =
        last.run limit behind place (pulled + tokens.length) [] := by
  induction tokens with
  | nil =>
      intro reader position pulled
      exact .inr ⟨fun _ impossible => (nomatch impossible), reader, position, fun _ => rfl⟩
  | cons token rest ih =>
      intro reader position pulled
      by_cases last : token.kind = .endOfInput
      · refine .inl ⟨[], token, rest, reader.finish limit token, rfl, ?_, fun behind after' => ?_⟩
        · cases ended : reader.finish limit token with
          | ok tree => exact last
          | error fault => exact found?_of_finish ended
        · rw [List.nil_append, run, if_pos last]
          rfl
      · cases moved : reader.step limit token with
        | error fault =>
            refine .inl ⟨[], token, rest, .error fault, rfl, found?_of_step moved, ?_⟩
            intro behind after'
            rw [List.nil_append, run, if_neg last, moved]
            rfl
        | ok next =>
            have onward (behind : Option Fault) (others : List Token) :
                reader.run limit behind position pulled (token :: others) =
                  next.run limit behind token.position (pulled + 1) others := by
              rw [run, if_neg last, moved]
            rcases ih next token.position (pulled + 1) with
              ⟨before, decisive, after, outcome, rfl, explains, decides⟩ |
              ⟨inside, final, place, ends⟩
            · refine .inl ⟨token :: before, decisive, after, outcome, rfl, explains, ?_⟩
              intro behind after'
              rw [List.cons_append, onward, decides, List.length_cons]
              congr 1
              omega
            · refine .inr ⟨List.forall_mem_cons.mpr ⟨last, inside⟩, final, place, fun behind => ?_⟩
              rw [onward, ends, List.length_cons]
              congr 1
              omega

end Reader

namespace TokenStream

variable {limit : DepthLimit}

/-- A token decides the reading of every stream that starts with it and the tokens before it. -/
def Decides (limit : DepthLimit) (before : List Token) (token : Token)
    (outcome : Except Fault Expr) : Prop :=
  ∀ behind after, (mk (before ++ token :: after) behind).read limit = ⟨outcome, before.length + 1⟩

/-- The reader fails on a token of a sequence. -/
def FailsOn (limit : DepthLimit) (tokens : List Token) (fault : Fault) : Prop :=
  ((mk tokens none).read limit).outcome = .error fault ∧
    ∃ token ∈ tokens, fault.found? = some token

/-- A reading is decided by a token, or by what lies behind all tokens: a fault there is reported,
and if there is none the reader can only fail at an end of the input that is none of the tokens. -/
theorem read_cases (limit : DepthLimit) (tokens : List Token) :
    (∃ before token after outcome, tokens = before ++ token :: after ∧ token.Explains outcome ∧
      Decides limit before token outcome) ∨
    (∀ token ∈ tokens, token.kind ≠ .endOfInput) ∧
      (∀ fault, ((mk tokens (some fault)).read limit).outcome = .error fault) ∧
      ∀ fault, ((mk tokens none).read limit).outcome = .error fault →
        ∃ place, fault.found? = some (.endOfInput place) := by
  rcases Reader.run_cases tokens Reader.start 0 0 with
    ⟨before, token, after, outcome, same, explains, decides⟩ | ⟨inside, last, place, ends⟩
  · refine .inl ⟨before, token, after, outcome, same, explains, fun behind after' => ?_⟩
    rw [read, decides, Nat.zero_add]
  · refine .inr ⟨inside, fun fault => ?_, fun fault fails => ?_⟩
    · rw [read, ends]
      rfl
    · rw [read, ends] at fails
      exact ⟨place, Reader.found?_of_finish fails⟩

/-- **The reader fails on a token of a sequence exactly when a token of it decides on the fault.**
-/
theorem failsOn_iff {tokens : List Token} {fault : Fault} :
    FailsOn limit tokens fault ↔
      ∃ before token after, tokens = before ++ token :: after ∧ fault.found? = some token ∧
        Decides limit before token (.error fault) := by
  constructor
  · rintro ⟨fails, found, member, same⟩
    rcases read_cases limit tokens with
      ⟨before, token, after, outcome, rfl, explains, decides⟩ | ⟨inside, _, ended⟩
    · obtain rfl : outcome = .error fault := by rw [← fails, decides]
      exact ⟨before, token, after, rfl, explains, decides⟩
    · obtain ⟨place, other⟩ := ended fault fails
      obtain rfl : found = .endOfInput place := Option.some.inj (same.symm.trans other)
      exact absurd rfl (inside _ member)
  · rintro ⟨before, token, after, rfl, found, decides⟩
    refine ⟨by rw [decides], token, ?_, found⟩
    exact List.mem_append_right _ (List.mem_cons_self ..)

/-- What a closed stream leaves to be reported when the reader fails on none of its tokens. -/
theorem outcome_of_not_failsOn {stream : TokenStream} (closed : Closed stream.events)
    (sound : ∀ fault, ¬ FailsOn limit stream.tokens fault) :
    match stream.fault with
    | some fault => (stream.read limit).outcome = .error fault
    | none => ∃ tree, (stream.read limit).outcome = .ok tree := by
  obtain ⟨tokens, fault⟩ := stream
  rcases read_cases limit tokens with
    ⟨before, token, after, outcome, same, explains, decides⟩ | ⟨inside, lexical, _⟩
  · have reading := decides fault after
    rw [← same] at reading
    cases outcome with
    | error other =>
        have fails := failsOn_iff.mpr ⟨before, token, after, same, explains, decides⟩
        exact absurd fails (sound other)
    | ok tree =>
        rcases closed.cases with ⟨rfl, _⟩ | ⟨_, inside⟩
        · exact ⟨tree, by rw [reading]⟩
        · refine absurd explains (inside token ?_)
          rw [same]
          exact List.mem_append_right _ (List.mem_cons_self ..)
  · rcases closed.cases with ⟨_, last, member, kind⟩ | ⟨⟨fault, rfl⟩, _⟩
    · exact absurd kind (inside last member)
    · exact lexical fault

end TokenStream

/-! ## The event at fault -/

theorem Fault.position?_of_found? {fault : Fault} {token : Token}
    (found : fault.found? = some token) : fault.position? = some token.position := by
  cases fault with
  | unexpectedToken _ _ _ | endOfInput _ _ | trailingInput _ | nestingTooDeep _ _ =>
      exact congrArg (Option.map Token.position) found
  | _ => cases found

namespace TokenStream

variable {limit : DepthLimit}

/-- A stream whose events start with tokens starts with these tokens. -/
theorem tokens_of_events {before : List Token} {behind : Option Fault} {later : List Event} :
    ∀ {tokens : List Token}, events ⟨tokens, behind⟩ = before.map .ok ++ later →
      ∃ rest, tokens = before ++ rest ∧ events ⟨rest, behind⟩ = later := by
  induction before with
  | nil => exact fun {tokens} met => ⟨tokens, rfl, met⟩
  | cons token before ih =>
      intro tokens met
      cases tokens with
      | nil => cases behind <;> cases met
      | cons first tokens =>
          obtain ⟨same, met⟩ := List.cons.inj met
          cases same
          obtain ⟨rest, rfl, later⟩ := ih met
          exact ⟨rest, rfl, later⟩

/-- **The fault of a reading comes from an event at its place.** Every stream that meets this event
after the same tokens has the same fault. -/
theorem exists_event_of_fault {stream : TokenStream} (closed : Closed stream.events) {fault : Fault}
    (fails : (stream.read limit).outcome = .error fault) :
    ∃ before event after, stream.events = before ++ event :: after ∧
      event.position? = fault.position? ∧
      ∀ (other : TokenStream) (after' : List Event), other.events = before ++ event :: after' →
        (other.read limit).outcome = .error fault := by
  obtain ⟨tokens, behind⟩ := stream
  rcases read_cases limit tokens with
    ⟨before, token, after, outcome, rfl, explains, decides⟩ | ⟨inside, lexical, _⟩
  · obtain rfl : outcome = .error fault := by rw [← fails, decides]
    refine ⟨before.map .ok, .ok token, events ⟨after, behind⟩, ?_, ?_, ?_⟩
    · simp [events]
    · exact (Fault.position?_of_found? explains).symm
    · rintro ⟨tokens, behind'⟩ after' met
      obtain ⟨rest, rfl, later⟩ := tokens_of_events met
      cases rest with
      | nil => cases behind' <;> cases later
      | cons first rest =>
          cases later
          rw [decides]
  · rcases closed.cases with ⟨_, last, member, kind⟩ | ⟨⟨other, rfl⟩, _⟩
    · exact absurd kind (inside last member)
    · obtain rfl : other = fault := Except.error.inj ((lexical other).symm.trans fails)
      refine ⟨tokens.map .ok, .error other, [], rfl, rfl, ?_⟩
      rintro ⟨tokens', behind'⟩ after' met
      obtain ⟨rest, rfl, later⟩ := tokens_of_events met
      cases rest with
      | cons first rest => cases later
      | nil =>
          cases behind' with
          | none => cases later
          | some fault =>
              cases later
              rw [List.append_nil]
              exact lexical other

end TokenStream

/-! ## Reading a text -/

/-- A fault points at the end of its text or at a lexeme. -/
theorem exists_lexeme_of_fault {text : String} {limit : DepthLimit} {fault : Fault}
    (fails : Expr.parse text limit = .error fault) :
    ∃ front second, text.toList = front ++ second ∧
      fault.position? = some (front.length : Int) ∧ (second = [] ∨ StartsWithLexeme second) := by
  obtain ⟨before, event, after, met, same, _⟩ :=
    TokenStream.exists_event_of_fault (TokenStream.closed_eventsFrom text.toList 0) fails
  obtain ⟨front, second, split, _, starts, _, place⟩ := TokenStream.events_split met
  rw [Nat.zero_add, same] at place
  exact ⟨front, second, split, place, starts⟩

/-- A text that agrees up to the end of the lexeme at fault has the same fault. -/
theorem parse_eq_error_of_lexeme {text other : String} {limit : DepthLimit} {fault : Fault}
    {front lexeme rest more : List Char} (fails : Expr.parse text limit = .error fault)
    (place : fault.position? = some (front.length : Int))
    (whole : text.toList = front ++ (lexeme ++ rest)) (found : Lexeme lexeme rest)
    (apart : Apart lexeme more) (whole' : other.toList = front ++ (lexeme ++ more)) :
    Expr.parse other limit = .error fault := by
  obtain ⟨before, event, after, met, same, decides⟩ :=
    TokenStream.exists_event_of_fault (TokenStream.closed_eventsFrom text.toList 0) fails
  have met : TokenStream.eventsFrom 0 text.toList = before ++ event :: after := met
  obtain ⟨first, second, split, halves, _, alone, place'⟩ := TokenStream.events_split met
  -- the event and the fault point at the same place, so the first half is `front`
  have length : first.length = front.length := by
    rw [Nat.zero_add, same, place] at place'
    have := Option.some.inj place'
    omega
  rw [whole] at split met
  obtain ⟨rfl, rfl⟩ := List.append_inj split length.symm
  have start : TokenStream.eventsFrom (0 + front.length) (lexeme ++ rest) = event :: after := by
    rw [TokenStream.events_append_of_eq halves alone] at met
    exact List.append_cancel_left met
  obtain ⟨after', later⟩ := TokenStream.events_of_lexeme found apart start
  have halves' : Apart front (lexeme ++ more) := halves.of_ne_nil found.ne_nil more
  refine decides (TokenStream.ofText other) after' ?_
  show TokenStream.eventsFrom 0 other.toList = _
  rw [whole', TokenStream.events_append_of_eq halves' alone, later]

/-- **Reading a text reports the first fault, and the fault is local.** Here `stream` is what the
text is split into.

A fault of the reader on one of the tokens is reported, and what lies behind them has no part in the
reading. If the reader fails on none, a fault behind the tokens is reported, and without one the
text is an expression.

A reported fault points at the end of the text or at a lexeme. Let a fault be reported at a lexeme,
with the characters `front` before it and `rest` behind it. Every text that goes on with `more` in
place of `rest`, without a digit that continues the lexeme, has the same fault. -/
theorem parse_reports_first_fault (text : String) (limit : DepthLimit) :
    let stream := TokenStream.ofText text
    (∀ fault, TokenStream.FailsOn limit stream.tokens fault →
      Expr.parse text limit = .error fault ∧
        ∀ behind, (TokenStream.mk stream.tokens behind).read limit = stream.read limit) ∧
    ((∀ fault, ¬ TokenStream.FailsOn limit stream.tokens fault) →
      match stream.fault with
      | some fault => Expr.parse text limit = .error fault
      | none => ∃ tree, Expr.parse text limit = .ok tree) ∧
    (∀ fault, Expr.parse text limit = .error fault →
      ∃ front second, text.toList = front ++ second ∧
        fault.position? = some (front.length : Int) ∧ (second = [] ∨ StartsWithLexeme second)) ∧
    (∀ (fault : Fault) (front lexeme rest more : List Char) (other : String),
      Expr.parse text limit = .error fault → fault.position? = some (front.length : Int) →
      text.toList = front ++ (lexeme ++ rest) → Lexeme lexeme rest →
      other.toList = front ++ (lexeme ++ more) → Apart lexeme more →
      Expr.parse other limit = .error fault) := by
  intro stream
  have closed : TokenStream.Closed stream.events := TokenStream.closed_eventsFrom text.toList 0
  refine ⟨fun fault fails => ?_, TokenStream.outcome_of_not_failsOn closed,
    fun _ => exists_lexeme_of_fault, ?_⟩
  · obtain ⟨before, token, after, same, _, decides⟩ := TokenStream.failsOn_iff.mp fails
    have reading (behind : Option Fault) :
        (TokenStream.mk stream.tokens behind).read limit = ⟨.error fault, before.length + 1⟩ := by
      rw [same]
      exact decides behind after
    have whole : stream.read limit = ⟨.error fault, before.length + 1⟩ := reading stream.fault
    refine ⟨?_, fun behind => (reading behind).trans whole.symm⟩
    show (stream.read limit).outcome = _
    rw [whole]
  · intro fault front lexeme rest more other fails place whole found whole' apart
    exact parse_eq_error_of_lexeme fails place whole found apart whole'

/-- A second number hides the character behind it; that character is reported behind a sign; and a
number that starts with a zero is reported whatever is written behind it. -/
theorem first_fault_of_stray_characters :
    Expr.parse "1 2 x" = .error (.trailingInput (.number 2 2)) ∧
      Expr.parse "1 + x" = .error (.unexpectedCharacter "x" 4) ∧
      Expr.parse "2d6 07x" = .error (.leadingZero 4) ∧
      Expr.parse "2d6 07 +" = .error (.leadingZero 4) := by
  have zero : Expr.parse "2d6 07x" = .error (.leadingZero 4) := by cbv
  refine ⟨?_, ?_, zero, ?_⟩
  · refine ((parse_reports_first_fault "1 2 x" .standard).1 _ ⟨?_, .number 2 2, ?_, rfl⟩).1
    · cbv
    · have tokens : (TokenStream.ofText "1 2 x").tokens = [.number 0 1, .number 2 2] := by cbv
      rw [tokens]
      decide
  · have stream : TokenStream.ofText "1 + x" =
        ⟨[.number 0 1, .operator 2 .plus], some (.unexpectedCharacter "x" 4)⟩ := by cbv
    have second := (parse_reports_first_fault "1 + x" .standard).2.1
    rw [stream] at second
    refine second ?_
    rintro fault ⟨fails, token, member, found⟩
    cases fails
    cases found
    revert member
    decide
  · refine (parse_reports_first_fault "2d6 07x" .standard).2.2.2 _ ['2', 'd', '6', ' '] ['0', '7']
      ['x'] [' ', '+'] "2d6 07 +" zero rfl (by decide) (.leadingZero _ (by decide)) (by decide) ?_
    intro c _ d next _
    cases next
    decide

end DiceNotation
