import DiceNotation.Program
import DiceNotation.Proofs.Answers.Members
import DiceNotation.Proofs.Evaluation.Reports

/-!
# What a command prints

A command ends in an answer. In JSON the first output holds the answer as it is. As text it holds
what the text of the answer is (`Answer.asText`): the expression and the finished rolls where they
are asked for, with the sum of each, and the total. An answer of a failure has no text; the report
of the failure goes to the second output.

The text is read off the members of the answer. So `Program.stdout_rollOn` says of both forms at
once that they show the answer of the detailed roll. How the run ends depends on the same outcome
(`Program.ending_rollOn`). Some faults break a run down instead. Where the limit of dice can be told
there is one such, at a limit whose value the host has dropped
(`Program.breakdown?_of_rollDetailed`).
-/

set_option autoImplicit false

namespace DiceNotation

/-- The number that a value is. -/
def Json.integer? : Json → Option Int
  | integer value => some value
  | _ => none

/-! ## Answers as text -/

namespace Answer

/-- The finished roll of an answer on a line. The sum is that of its draws. -/
def rollLine (roll : Json) : String :=
  match roll.member? "count", roll.member? "sides", roll.member? "draws" with
  | some (.integer count), some (.integer sides), some (.list draws) =>
    let values := draws.filterMap Json.integer?
    let listed := ", ".intercalate (values.map toString)
    let sum := values.foldr (· + ·) 0
    s!"{count}d{sides}: [{listed}] = {sum}"
  | _, _, _ => ""

/-- The expression of an answer on a line. -/
def treeLines (answer : Json) : List String :=
  match answer.member? "tree" with
  | some (.text tree) => ["tree: " ++ tree]
  | _ => []

/-- The finished rolls of an answer, each on a line. -/
def rollLines (answer : Json) : List String :=
  match answer.member? "rolls" with
  | some (.list rolls) => rolls.map rollLine
  | _ => []

/-- An answer as text: the expression and the finished rolls where they are asked for, and the
total. An answer without a total is not shown. -/
def asText (showTree showRolls : Bool) (answer : Json) : String :=
  match answer.member? "total" with
  | some (.integer total) =>
    Program.lines ((if showTree then treeLines answer else []) ++
      (if showRolls then rollLines answer else []) ++ [toString total])
  | _ => ""

theorem rollLine_toJson (roll : DieRoll) : rollLine roll.toJson = Program.rollLine roll := by
  have values : (roll.draws.map Json.integer).filterMap Json.integer? = roll.draws := by
    rw [List.filterMap_map]
    exact List.filterMap_some
  have shown : rollLine roll.toJson =
      let values := (roll.draws.map Json.integer).filterMap Json.integer?
      let listed := ", ".intercalate (values.map toString)
      let sum := values.foldr (· + ·) 0
      s!"{roll.count}d{roll.sides}: [{listed}] = {sum}" := rfl
  rw [shown, values]
  rfl

theorem asText_failure (showTree showRolls : Bool) (command : String) (fault : Fault) :
    asText showTree showRolls (failure command fault) = "" :=
  rfl

theorem asText_detailed (showTree showRolls : Bool) (result : RollResult) :
    asText showTree showRolls (detailed result) = Program.rollText showTree showRolls result := by
  have rolls : rollLines (detailed result) = result.rolls.map Program.rollLine := by
    have listed : rollLines (detailed result) =
        (result.rolls.map DieRoll.toJson).map rollLine := rfl
    rw [listed, List.map_map]
    exact List.map_congr_left fun roll _ => rollLine_toJson roll
  have shown : asText showTree showRolls (detailed result) =
      Program.lines ((if showTree then ["tree: " ++ result.tree.render] else []) ++
        (if showRolls then rollLines (detailed result) else []) ++ [toString result.total]) := rfl
  rw [shown, rolls]
  rfl

end Answer

/-! ## What a run prints, and how it ends -/

namespace Program

variable {settings : Settings} {options : CommandLine.Options}

/-- What the command line prints of an answer: the object itself, or its text. -/
def printed (options : CommandLine.Options) (settings : Settings) (answer : Json) : String :=
  if isJson options settings then lines [answer.indented]
  else
    Answer.asText (options.tree || settings.showTree) (options.rolls || settings.showRolls) answer

theorem stdout_failed (command : String) (code : ExitCode) (log : String) (fault : Fault)
    (text : Option String) :
    (failed command (isJson options settings) code log fault text).stdout =
      printed options settings (Answer.failure command fault) := by
  unfold failed printed
  cases isJson options settings with
  | true => rfl
  | false => simp [Answer.asText_failure]

theorem ending_failed (command : String) (json : Bool) (code : ExitCode) (log : String)
    (fault : Fault) (text : Option String) :
    (failed command json code log fault text).ending = .exit code := by
  cases json <;> rfl

/-- **How a run that rolls a notation ends.** -/
theorem ending_rollOn (generator : Twister) (text : String) :
    (rollOn generator settings options text).ending =
      match (rollDetailed Twister.source generator
          ⟨maxDiceFor options settings, settings.maxDepth⟩ text).outcome with
      | .ok _ => .exit .success
      | .error fault =>
        match breakdown? options fault with
        | some breakdown => .brokenDown breakdown
        | none => .exit .notationFailure := by
  simp only [rollOn]
  cases (rollDetailed Twister.source generator
      ⟨maxDiceFor options settings, settings.maxDepth⟩ text).outcome with
  | error fault =>
      cases broken : breakdown? options fault with
      | some breakdown => simp only [broken]
      | none =>
          simp only [broken]
          exact ending_failed ..
  | ok result => simp only; split <;> rfl

/-- **The command line prints the answer of the detailed roll**, unless it answers in JSON and the
run breaks down. -/
theorem stdout_rollOn {generator : Twister} {text : String}
    (reports : isJson options settings = true → ∀ fault, (rollDetailed Twister.source generator
      ⟨maxDiceFor options settings, settings.maxDepth⟩ text).outcome = .error fault →
        breakdown? options fault = none) :
    (rollOn generator settings options text).stdout =
      printed options settings (Answer.ofRoll true
        (rollDetailed Twister.source generator
          ⟨maxDiceFor options settings, settings.maxDepth⟩ text).outcome) := by
  simp only [rollOn]
  cases outcome : (rollDetailed Twister.source generator
      ⟨maxDiceFor options settings, settings.maxDepth⟩ text).outcome with
  | error fault =>
      cases broken : breakdown? options fault with
      | none =>
          simp only [broken]
          exact stdout_failed ..
      | some breakdown =>
          -- a run that breaks down prints nothing, which is also the text of a failure
          have text : isJson options settings = false := by
            cases json : isJson options settings with
            | false => rfl
            | true =>
                rw [reports json fault outcome] at broken
                cases broken
          simp [broken, printed, text, Answer.ofRoll, Answer.asText_failure]
  | ok result =>
      simp only [printed, Answer.ofRoll, if_true, Answer.asText_detailed]
      split <;> rfl

/-! ### Faults that break a run down -/

/-- Only a limit of dice whose value was dropped is met as an empty one. -/
theorem maxDice_of_meetsEmptyLimit {fault : Fault}
    (meets : meetsEmptyLimit options fault = true) : options.maxDice = .empty := by
  cases fault with
  | rollCount count limit =>
      rw [meetsEmptyLimit, Bool.and_eq_true, beq_iff_eq] at meets
      exact meets.1
  | _ => cases meets

/-- A limit in force can be told if the options give it in digits and the settings give none below
one. -/
theorem canBeTold_maxDiceFor
    (given : ∀ limit, options.maxDice = .number limit → Text.isWritable limit = true)
    (set : ∀ limit ∈ settings.maxDice, 1 ≤ limit) :
    Limits.CanBeTold (maxDiceFor options settings) := by
  intro limit inForce
  unfold maxDiceFor at inForce
  cases option : options.maxDice with
  | absent =>
      rw [option] at inForce
      exact .inr (set limit inForce)
  | empty =>
      rw [option] at inForce
      cases inForce
      exact .inl (by decide +kernel)
  | number other =>
      rw [option] at inForce
      cases inForce
      exact .inl (given limit option)

/-- **No fault of a roll breaks a run down**, unless it meets a limit of dice whose value was
dropped. -/
theorem breakdown?_of_rollDetailed (limited : Limits.CanBeTold (maxDiceFor options settings))
    {generator : Twister} {text : String} {fault : Fault}
    (fails : (rollDetailed Twister.source generator
      ⟨maxDiceFor options settings, settings.maxDepth⟩ text).outcome = .error fault) :
    breakdown? options fault =
      if meetsEmptyLimit options fault then some .emptyMaxDice else none := by
  let limits : Limits := ⟨maxDiceFor options settings, settings.maxDepth⟩
  have inForce : Limits.CanBeTold limits.maxDice := limited
  have told := rollDetailed_told Twister.fair_source.fairDice Twister.answers_source inForce fails
  unfold breakdown?
  cases fault with
  | unwritable cause => exact absurd rfl (told.ne_unwritable cause)
  | _ => rfl

/-- No fault of a roll breaks a run down if the limit of dice has its value. -/
theorem breakdown?_eq_none (limited : Limits.CanBeTold (maxDiceFor options settings))
    (kept : options.maxDice ≠ .empty) {generator : Twister} {text : String} {fault : Fault}
    (fails : (rollDetailed Twister.source generator
      ⟨maxDiceFor options settings, settings.maxDepth⟩ text).outcome = .error fault) :
    breakdown? options fault = none := by
  rw [breakdown?_of_rollDetailed limited fails]
  exact if_neg fun meets => kept (maxDice_of_meetsEmptyLimit meets)

theorem stdout_parseUnder (json : isJson options settings = true) (text : String) :
    (parseUnder settings options text).stdout =
      lines [(Answer.ofParse text (Expr.parse text settings.maxDepth)).indented] := by
  unfold parseUnder
  cases Expr.parse text settings.maxDepth with
  | error fault => simp only [failed, json]; rfl
  | ok tree => simp only [json]; rfl

end Program

end DiceNotation
