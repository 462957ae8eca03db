import DiceNotation.Proofs.Evaluation.Reports
import DiceNotation.Proofs.TokenStream.Flaws

/-!
# What a reading tells

A fault of the reader tells the token that it has found, with its value and its place, and the limit
of levels. If all of these can be written, for every token of a stream, then so can the message of
every fault: this holds of each step of the reader (`Reader.isWritable_of_step`), hence of a run
(`Reader.isWritable_of_run`), and the reading is told as it is (`TokenStream.parse_eq_read`).

The numbers of a text are in the range of a word, and its places are not behind its end. So what is
told of the reading of a text is the reading itself, unless the text has more characters than the
greatest word counts (`Expr.outcome_parse_ofText`). This is why `Expr.parse` can leave this step
out.
-/

set_option autoImplicit false

namespace DiceNotation

/-- The place of a token can be written, and what its name shows. -/
structure Token.CanBeTold (token : Token) : Prop where
  place : Text.isWritable token.position = true
  shown : ∀ value ∈ token.displayed, Text.isWritable value = true

theorem Token.canBeTold_endOfInput {position : Int} (place : Text.isWritable position = true) :
    (Token.endOfInput position).CanBeTold :=
  ⟨place, fun _ impossible => nomatch impossible⟩

theorem Token.value_of_displayed {token : Token} {value : Int} (shown : value ∈ token.displayed) :
    value ∈ token.value := by
  unfold displayed at shown
  split at shown
  · rename_i same
    rw [same]
    exact List.mem_singleton.mp shown ▸ rfl
  · cases shown

variable {limit : DepthLimit} {token : Token} {fault : Fault}

namespace Reader

/-- **A step over a token that can be told fails with a fault that can be told.** -/
theorem isWritable_of_step (levels : Text.isWritable limit.levels = true) (told : token.CanBeTold)
    {reader : Reader} (fails : reader.step limit token = .error fault) :
    fault.isWritable = true := by
  have place := told.place
  have shown := List.all_eq_true.mpr told.shown
  cases reader with
  | operand pending =>
      simp only [step] at fails
      split at fails
      · cases fails
        simp [Fault.isWritable, Fault.numbers, levels, place]
      · split at fails <;> cases fails
        · simpa [Fault.isWritable, Fault.numbers, place] using shown
        · simp [Fault.isWritable, Fault.numbers, place]
  | operator left pending =>
      simp only [step] at fails
      split at fails <;> cases fails
      simpa [Fault.isWritable, Fault.numbers, place] using shown

/-- An end of the input that can be told is refused with a fault that can be told. -/
theorem isWritable_of_finish (levels : Text.isWritable limit.levels = true)
    (told : token.CanBeTold) {reader : Reader}
    (fails : reader.finish limit token = .error fault) : fault.isWritable = true := by
  have place := told.place
  cases reader with
  | operand pending =>
      simp only [finish] at fails
      split at fails <;> cases fails <;>
        simp [Fault.isWritable, Fault.numbers, levels, place]
  | operator left pending => cases fails

/-- **A run over tokens that can be told fails with a fault that can be told**, or with the fault
behind the tokens. -/
theorem isWritable_of_run (levels : Text.isWritable limit.levels = true) {behind : Option Fault}
    (lexical : ∀ fault ∈ behind, fault.isWritable = true) {tokens : List Token} :
    ∀ {reader : Reader} {position : Int} {pulled : Nat}, Text.isWritable position = true →
      (∀ token ∈ tokens, token.CanBeTold) →
      (reader.run limit behind position pulled tokens).outcome = .error fault →
        fault.isWritable = true := by
  induction tokens with
  | nil =>
      intro reader position pulled place _ fails
      cases behind with
      | none => exact isWritable_of_finish levels (Token.canBeTold_endOfInput place) fails
      | some fault' =>
          cases fails
          exact lexical fault rfl
  | cons token rest ih =>
      intro reader position pulled _ told fails
      have here : token.CanBeTold := told token (List.mem_cons_self ..)
      by_cases last : token.kind = .endOfInput
      · rw [run, if_pos last] at fails
        exact isWritable_of_finish levels here fails
      · rw [run, if_neg last] at fails
        cases moved : reader.step limit token with
        | error fault' =>
            rw [moved] at fails
            cases fails
            exact isWritable_of_step levels here moved
        | ok next =>
            rw [moved] at fails
            have others : ∀ token ∈ rest, token.CanBeTold :=
              fun token member => told token (List.mem_cons_of_mem _ member)
            exact ih here.place others fails

end Reader

namespace TokenStream

/-- **A stream that can be told is told as it is read.** -/
theorem parse_eq_read {stream : TokenStream} (levels : Text.isWritable limit.levels = true)
    (lexical : ∀ fault ∈ stream.fault, fault.isWritable = true)
    (told : ∀ token ∈ stream.tokens, token.CanBeTold) : stream.parse limit = stream.read limit := by
  have kept : (stream.read limit).outcome.mapError Fault.told = (stream.read limit).outcome := by
    cases ended : (stream.read limit).outcome with
    | ok tree => rfl
    | error fault =>
        have short : fault.isWritable = true :=
          Reader.isWritable_of_run levels lexical (by decide +kernel) told ended
        exact congrArg Except.error (Fault.told_of_isWritable short)
  rw [parse, Reading.told, kept]

/-- The events of a text are not behind its end. -/
theorem position_of_event {text : String} {event : Event}
    (met : event ∈ (ofText text).events) :
    ∃ place : Nat, place ≤ text.length ∧ event.position? = some (place : Int) := by
  obtain ⟨before, after, split⟩ := List.append_of_mem met
  obtain ⟨front, second, whole, _, _, _, place⟩ := events_split split
  refine ⟨front.length, ?_, by simpa using place⟩
  rw [← String.length_toList, whole, List.length_append]
  exact Nat.le_add_right ..

theorem isWritable_of_place {text : String} (short : (text.length : Int) ≤ Word.greatest)
    {place : Nat} (inside : place ≤ text.length) : Text.isWritable place = true := by
  have low : Word.least ≤ (place : Int) := by
    simp only [Word.least]
    omega
  exact Text.isWritable_of_holds ⟨low, by omega⟩

/-- What stops the splitting of a text can be told, unless the text is too long. -/
theorem isWritable_of_fault {text : String} (short : (text.length : Int) ≤ Word.greatest)
    (stopped : (ofText text).fault = some fault) : fault.isWritable = true := by
  obtain ⟨index, flaw, _, rfl⟩ := exists_hasFirstFlaw stopped
  have met : Except.error (flaw.fault index) ∈ (ofText text).events :=
    List.mem_append_right _ (List.mem_map_of_mem (Option.mem_toList.mpr stopped))
  obtain ⟨place, inside, points⟩ := position_of_event met
  cases flaw <;> cases points <;>
    simpa [Text.Flaw.fault, Fault.isWritable, Fault.numbers] using isWritable_of_place short inside

/-- The tokens of a text can be told, unless the text is too long. -/
theorem canBeTold_of_ofText {text : String} (short : (text.length : Int) ≤ Word.greatest)
    (member : token ∈ (ofText text).tokens) : token.CanBeTold := by
  have met : Except.ok token ∈ (ofText text).events :=
    List.mem_append_left _ (List.mem_map_of_mem member)
  obtain ⟨place, inside, points⟩ := position_of_event met
  refine ⟨?_, fun value shown => ?_⟩
  · rw [Option.some.inj points]
    exact isWritable_of_place short inside
  · obtain ⟨low, high⟩ := value_of_ofText member value (Token.value_of_displayed shown)
    have above : Word.least ≤ value := by
      simp only [Word.least]
      omega
    exact Text.isWritable_of_holds ⟨above, high⟩

end TokenStream

/-- **What is told of the reading of a text is the reading**, unless the text is too long. -/
theorem Expr.outcome_parse_ofText {text : String} (short : (text.length : Int) ≤ Word.greatest)
    (levels : Text.isWritable limit.levels = true) :
    ((TokenStream.ofText text).parse limit).outcome = Expr.parse text limit := by
  rw [TokenStream.parse_eq_read levels]
  · rfl
  · exact fun fault stopped => TokenStream.isWritable_of_fault short stopped
  · exact fun token member => TokenStream.canBeTold_of_ofText short member

end DiceNotation
