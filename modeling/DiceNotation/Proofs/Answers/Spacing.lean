import DiceNotation.Proofs.Answers.Printing
import DiceNotation.Proofs.Evaluation.Recording
import DiceNotation.Proofs.TokenStream.Spacing

/-!
# White space and letter case have no part in a roll

Two notations roll alike if the same expression is read from both, or none from either because of
the same fault, and if then the rolls of both end alike, leave the same table, and have asked the
source for the same (`RollsAlike`). Only the places that faults of reading point at may differ. How
they differ is told by a function that moves the places of the one notation to those of the other.

A reader learns of a notation by the events that it meets, and hands their places on untouched. So
notations with the same events at moved places roll alike (`RollsAlike.of_events`). White space may
be put anywhere but inside a run of digits, and the die may be written with either letter
(`RollsAlike.of_insertion`). A notation may also be cut anywhere but inside a run of digits, and the
words be joined by blanks (`RollsAlike.of_words`). The program ends alike on notations that roll
alike (`RollsAlike.rollUnder`).
-/

set_option autoImplicit false

namespace DiceNotation

/-- The second notation rolls as the first does, with any source, from any state and under any
limits, except that the faults of reading point at places that are moved. -/
structure RollsAlike (move : Int → Int) (text text' : String) : Prop where
  /-- The same expression is read, or the same fault is found at the place where its own is moved
  to. -/
  read : ∀ limit : DepthLimit,
    Expr.parse text' limit = (Expr.parse text limit).mapError (Fault.moved move)
  /-- The rolls have the same expression, total and finished rolls, or end in the same fault, which
  is moved if it is one of reading. -/
  outcome : ∀ {σ : Type} (source : Source σ) (state : σ) (limits : Limits),
    (rollDetailed source state limits text').outcome =
      match Expr.parse text limits.maxDepth with
      | .error fault => .error (fault.moved move)
      | .ok _ => (rollDetailed source state limits text).outcome.map
          fun result => { result with text := text' }
  /-- The rolls leave the same table, and with it the same state of the source. -/
  table : ∀ {σ : Type} (source : Source σ) (state : σ) (limits : Limits),
    (rollDetailed source state limits text').table = (rollDetailed source state limits text).table
  /-- The rolls put the same requests to the source. -/
  asked : ∀ {σ : Type} (source : Source σ) (state : σ) (limits : Limits),
    (rollDetailed source.logged (state, []) limits text').asked =
      (rollDetailed source.logged (state, []) limits text).asked

namespace RollsAlike

variable {move : Int → Int} {text text' : String}

/-- The outcomes of both rolls under some limits: two faults of reading, one of them moved, the same
fault of the evaluation, or two results that differ in nothing but the notation. -/
theorem outcomes (alike : RollsAlike move text text') {σ : Type} (source : Source σ) (state : σ)
    (limits : Limits) :
    (∃ fault, (rollDetailed source state limits text).outcome = .error fault ∧
        ((rollDetailed source state limits text').outcome = .error (fault.moved move) ∨
          (rollDetailed source state limits text').outcome = .error fault)) ∨
      ∃ result, (rollDetailed source state limits text).outcome = .ok result ∧
        (rollDetailed source state limits text').outcome = .ok { result with text := text' } := by
  have ended := alike.outcome source state limits
  cases read : Expr.parse text limits.maxDepth with
  | error fault =>
      rw [read] at ended
      refine .inl ⟨fault, ?_, .inl ended⟩
      simp only [rollDetailed, play, read]
      rfl
  | ok tree =>
      rw [read] at ended
      cases outcome : (rollDetailed source state limits text).outcome with
      | error fault =>
          rw [outcome] at ended
          exact .inl ⟨fault, rfl, .inr ended⟩
      | ok result =>
          rw [outcome] at ended
          exact .inr ⟨result, rfl, ended⟩

/-- How the program ends, and the text that it answers with if it answers with a text, depend on a
roll only by its outcome, and not on the places that the outcome points at. -/
theorem rollOn (alike : RollsAlike move text text') (generator : Twister) (settings : Settings)
    (options : CommandLine.Options) :
    (Program.rollOn generator settings options text').ending =
        (Program.rollOn generator settings options text).ending ∧
      (Program.isJson options settings = false →
        (Program.rollOn generator settings options text').stdout =
          (Program.rollOn generator settings options text).stdout) := by
  have kept (fault : Fault) :
      Program.breakdown? options (fault.moved move) = Program.breakdown? options fault := by
    cases fault <;> rfl
  have outcomes := alike.outcomes Twister.source generator
    ⟨Program.maxDiceFor options settings, settings.maxDepth⟩
  constructor
  · rw [Program.ending_rollOn, Program.ending_rollOn]
    rcases outcomes with ⟨fault, first, second | second⟩ | ⟨result, first, second⟩
    · rw [first, second]
      simp only [kept]
    · rw [first, second]
    · rw [first, second]
  · intro asText
    have noJson : Program.isJson options settings ≠ true := by simp [asText]
    rw [Program.stdout_rollOn fun json => absurd json noJson,
      Program.stdout_rollOn fun json => absurd json noJson]
    rcases outcomes with ⟨fault, first, second | second⟩ | ⟨result, first, second⟩
    · rw [first, second]
      simp [Program.printed, asText, Answer.ofRoll, Answer.asText_failure]
    · rw [first, second]
    · rw [first, second]
      simp [Program.printed, asText, Answer.ofRoll, Answer.asText_detailed, Program.rollText]

/-- The program ends alike on notations that roll alike, and if it answers with a text, that text is
the same. -/
theorem rollUnder (alike : RollsAlike move text text') (fresh : Twister) (settings : Settings)
    (options : CommandLine.Options) :
    (Program.rollUnder fresh settings options text').ending =
        (Program.rollUnder fresh settings options text).ending ∧
      (Program.isJson options settings = false →
        (Program.rollUnder fresh settings options text').stdout =
          (Program.rollUnder fresh settings options text).stdout) := by
  unfold Program.rollUnder
  cases Program.seedFor options settings with
  | error breakdown => exact ⟨rfl, fun _ => rfl⟩
  | ok seed => exact alike.rollOn (Service.generator fresh seed) settings options

end RollsAlike

end DiceNotation
