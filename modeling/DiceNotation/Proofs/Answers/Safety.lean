import DiceNotation.Proofs.Answers.Members
import DiceNotation.Proofs.Evaluation.Reports
import DiceNotation.Proofs.Evaluation.Requests
import DiceNotation.Proofs.Settings.Loading

/-!
# The service is safe for any client

A client calls the service with any text, any seed and a wish for details. Every answer is an
envelope (`Answer.IsEnvelope`): it names the command and says whether it succeeded, with what it
found or else with a fault that can be told. No call costs more than the settings allow. A roll
never has more dice than their limit, or than that of the service where they have none. A call makes
at most as many requests to the generator as the limit has dice, for each die mark of the text.

This needs a limit that is not negative, and settings that are loaded have such a limit
(`Settings.IsUsable.one_le_limit`).
-/

set_option autoImplicit false

namespace DiceNotation

/-- An answer says how a command ended: with the members of what it found, or with a fault that can
be told. -/
structure Answer.IsEnvelope {α : Type} (command : String) (members : α → List (String × Json))
    (maxDice : Option Int) (outcome : Except Fault α) (answer : Json) : Prop where
  command : answer.member? "command" = some (.text command)
  success : ∀ found, outcome = .ok found →
    answer.member? "ok" = some (.boolean true) ∧ answer.member? "error" = none ∧
      ∀ name member, (name, member) ∈ members found → answer.member? name = some member
  failure : ∀ fault, outcome = .error fault →
    answer.member? "ok" = some (.boolean false) ∧
      answer.member? "error" = some fault.complaint.toJson ∧ fault.IsTold maxDice

namespace Answer

variable {maxDice : Option Int}

/-- What the answer of a roll of a notation says of the result. -/
def rollMembers (text : String) (isDetailed : Bool) (result : RollResult) : List (String × Json) :=
  [("notation", .text text), ("total", .integer result.total)] ++
    if isDetailed then
      [("tree", .text result.tree.render), ("rolls", .list (result.rolls.map DieRoll.toJson))]
    else []

/-- What the answer of the reading of a notation says of the expression. -/
def parseMembers (text : String) (tree : Expr) : List (String × Json) :=
  [("notation", .text text), ("tree", .text tree.render)]

theorem isEnvelope_ofRoll {text : String} {isDetailed : Bool} {outcome : Except Fault RollResult}
    (named : ∀ result, outcome = .ok result → result.text = text)
    (told : ∀ fault, outcome = .error fault → fault.IsTold maxDice) :
    IsEnvelope "roll" (rollMembers text isDetailed) maxDice outcome
      (ofRoll isDetailed outcome) := by
  cases outcome with
  | error fault =>
      refine ⟨rfl, fun _ impossible => (nomatch impossible), ?_⟩
      rintro _ ⟨⟩
      exact ⟨rfl, rfl, told fault rfl⟩
  | ok result =>
      obtain rfl := named result rfl
      refine ⟨?_, ?_, fun _ impossible => (nomatch impossible)⟩
      · cases isDetailed <;> rfl
      · rintro _ ⟨⟩
        cases isDetailed with
        | false =>
            refine ⟨rfl, rfl, ?_⟩
            rintro name member (_ | ⟨_, _ | ⟨_, ⟨⟩⟩⟩) <;> rfl
        | true =>
            refine ⟨rfl, rfl, ?_⟩
            rintro name member (_ | ⟨_, _ | ⟨_, _ | ⟨_, _ | ⟨_, ⟨⟩⟩⟩⟩⟩) <;> rfl

theorem isEnvelope_ofParse {text : String} {outcome : Except Fault Expr}
    (told : ∀ fault, outcome = .error fault → fault.IsTold maxDice) :
    IsEnvelope "parse" (parseMembers text) maxDice outcome (ofParse text outcome) := by
  cases outcome with
  | error fault =>
      refine ⟨rfl, fun _ impossible => (nomatch impossible), ?_⟩
      rintro _ ⟨⟩
      exact ⟨rfl, rfl, told fault rfl⟩
  | ok tree =>
      refine ⟨rfl, ?_, fun _ impossible => (nomatch impossible)⟩
      rintro _ ⟨⟩
      refine ⟨rfl, rfl, ?_⟩
      rintro name member (_ | ⟨_, _ | ⟨_, ⟨⟩⟩⟩) <;> rfl

end Answer

/-- **The limit of dice of a service is at least one.** -/
theorem Settings.IsUsable.one_le_limit {host : Host} {settings : Settings}
    (usable : IsUsable host settings) :
    1 ≤ settings.maxDice.getD Service.standardMaxDice := by
  cases given : settings.maxDice with
  | none => decide
  | some limit => exact usable.one_le_maxDice limit given

/-- **The service is safe for any client.**

The settings are the standard ones or have been loaded. A call gives a text, a seed or none, and
says whether it wants details. The nesting limit is one that a reader accepts, and both tools answer
with an envelope; in particular every fault can be told.

The limit of dice is that of the settings, or that of the service. The rolls that the call reaches
make all of its requests. None of them makes more than the limit has dice, and together they make at
most so many for each die mark of the text, whether the call succeeds or not. -/
theorem service_answers_any_client (host : Host) (settings : Settings)
    (usable : Settings.IsUsable host settings) (fresh : Twister) (text : String)
    (seed : Option Int) (isDetailed : Bool) :
    let service := Service.ofSettings settings
    let limit := settings.maxDice.getD Service.standardMaxDice
    let generator := Service.generator fresh (seed <|> settings.seed)
    let rolled := rollDetailed Twister.source generator service.limits text
    let asked := (rollDetailed Twister.source.logged (generator, []) service.limits text).asked
    let thrown := thrownRolls Twister.source generator service.limits text
    DepthLimit.ofInt? host.greatestDepth settings.maxDepth.levels =
        some service.limits.maxDepth ∧
      Answer.IsEnvelope "roll" (Answer.rollMembers text isDetailed) (some limit) rolled.outcome
        (service.answer fresh (.roll text seed isDetailed)).1 ∧
      Answer.IsEnvelope "parse" (Answer.parseMembers text) (some limit)
        (Expr.parse text settings.maxDepth) (service.answer fresh (.parse text)).1 ∧
      thrown.sum = (asked.length : Int) ∧ (∀ number ∈ thrown, number ≤ limit) ∧
      (asked.length : Int) ≤ limit * Text.dieMarks text := by
  intro service limit generator rolled asked thrown
  have positive : 0 ≤ limit := Int.le_trans (by decide) usable.one_le_limit
  have limited : service.limits.maxDice = some limit := rfl
  have writable : Limits.CanBeTold service.limits.maxDice := by
    rintro _ ⟨⟩
    exact .inr usable.one_le_limit
  refine ⟨usable.ofInt?_maxDepth, ?_, ?_, sum_thrownRolls,
    thrownRolls_le limited positive, length_asked_le limited positive⟩
  · refine Answer.isEnvelope_ofRoll (fun result found => ?_) fun fault fails =>
      rollDetailed_told Twister.fair_source.fairDice Twister.answers_source writable fails
    have whole : rolled = ⟨.ok result, rolled.table⟩ := by rw [← found]
    exact (rollDetailed_eq_ok_iff.mp whole).2.2.1
  · exact Answer.isEnvelope_ofParse fun fault fails => Expr.told_parse fails

/-- A roll for the number of dice of another roll, under a limit of two dice, makes at most four
requests. -/
theorem service_answers_nested_roll :
    let text := "version = 1\n[roll]\nmax_dice = 2\n"
    let settings : Settings := { maxDice := some 2 }
    let service := Service.ofSettings settings
    let generator := Service.generator ⟨#[], 0⟩ (some 7 <|> settings.seed)
    Settings.load Settings.plainHost (Settings.worldOf text.toUTF8) none none =
        .ok (.ok settings) ∧
      Answer.IsEnvelope "roll" (Answer.rollMembers "2d6D6" true) (some 2)
        (rollDetailed Twister.source generator service.limits "2d6D6").outcome
        (service.answer ⟨#[], 0⟩ (.roll "2d6D6" (some 7) true)).1 ∧
      ((rollDetailed Twister.source.logged (generator, []) service.limits
        "2d6D6").asked.length : Int) ≤ 4 := by
  intro text settings service generator
  have read : Settings.plainHost.readToml text =
      .ok [("version", .integer 1), ("roll", .table [("max_dice", .integer 2)])] := by cbv
  have loaded : Settings.load Settings.plainHost (Settings.worldOf text.toUTF8) none none =
      .ok (.ok settings) := by
    rw [Settings.load_of_holdsTable (Settings.chosenFile_worldOf text.toUTF8)
      (Settings.holdsTable_worldOf read)]
    rfl
  have usable : Settings.IsUsable Settings.plainHost settings := .inr ⟨_, _, _, loaded⟩
  have marks : settings.maxDice.getD Service.standardMaxDice * Text.dieMarks "2d6D6" = 4 := by
    decide
  obtain ⟨_, envelope, _, _, _, bound⟩ :=
    service_answers_any_client _ settings usable ⟨#[], 0⟩ "2d6D6" (some 7) true
  refine ⟨loaded, envelope, ?_⟩
  rwa [marks] at bound

end DiceNotation
