import DiceNotation.Proofs.Answers.Printing
import DiceNotation.Proofs.Answers.Writing
import DiceNotation.Proofs.Evaluation.DiceLimit
import DiceNotation.Proofs.Settings.Loading

/-!
# The command line and the service give the same answers

The command line takes settings, a seed and limits from its options and from a settings file, the
service from a settings file and from its calls. Each shapes its answers on its own. This module
says that what they answer is the same object, which the command line prints in one form or the
other (`Program.printed`). An object is told by what is written of it (`Json.indented_injective`),
so the two can be compared by their texts.

The one difference is that a service whose settings give no limit of dice has a limit of its own. It
answers as the command line does under this limit. So the answers are the same unless a roll is
reached that has more dice (`surfaces_agree`).
-/

set_option autoImplicit false

namespace DiceNotation

/-- Options that give neither a directory nor a settings file nor a limit of dice, and a seed if
there is one. -/
def CommandLine.Options.plain (options : CommandLine.Options) (seed : Option Int) :
    CommandLine.Options :=
  { options with
    root := none
    config := none
    seed := seed.elim .absent .number
    maxDice := .absent }

/-- Options with a limit of dice. -/
def CommandLine.Options.limited (options : CommandLine.Options) (limit : Int) :
    CommandLine.Options :=
  { options with maxDice := .number limit }

variable {surroundings : Surroundings} {settings : Settings} {options : CommandLine.Options}
  {seed : Option Int} {effective : Int}

namespace Program

/-- What is printed of a value tells it. -/
theorem lines_indented_injective :
    Function.Injective fun value : Json => lines [value.indented] := by
  intro value other same
  have lines_eq (text : String) : lines [text] = text ++ "\n" := by simp [lines]
  simp only [lines_eq] at same
  exact Json.indented_injective ((String.append_left_inj "\n").mp same)

/-- A command that is given neither a directory nor a file uses the settings of the service. -/
theorem settingsFor_eq (root : options.root = none) (config : options.config = none) :
    settingsFor surroundings options =
      serviceSettings surroundings.host surroundings.world := by
  unfold settingsFor
  rw [root, config]
  rfl

theorem seedFor_plain : seedFor (options.plain seed) settings = .ok (seed <|> settings.seed) := by
  cases seed <;> rfl

/-- The settings of a service can be in force. -/
theorem isUsable_of_serviceSettings {host : Host} {world : World}
    (loaded : serviceSettings host world = .ok (.ok settings)) : settings.IsUsable host :=
  .of_found loaded

/-- **What the command prints that rolls a notation.** -/
theorem stdout_runRoll
    (loaded : serviceSettings surroundings.host surroundings.world = .ok (.ok settings))
    (root : options.root = none) (config : options.config = none)
    (given : ∀ limit, options.maxDice = .number limit → Text.isWritable limit = true)
    (limited : options.maxDice ≠ .empty) (seeded : seedFor options settings = .ok (some effective))
    (text : String) :
    (runRoll surroundings options text).stdout =
      printed options settings (Answer.ofRoll true
        (rollDetailed Twister.source (.ofSeed effective)
          ⟨maxDiceFor options settings, settings.maxDepth⟩ text).outcome) := by
  unfold runRoll withSettings
  rw [settingsFor_eq root config, loaded]
  simp only [rollUnder, seeded]
  have set := (isUsable_of_serviceSettings loaded).one_le_maxDice
  exact stdout_rollOn fun _ _ => breakdown?_eq_none (canBeTold_maxDiceFor given set) limited

/-- **What the command prints that reads a notation.** -/
theorem stdout_runParse
    (loaded : serviceSettings surroundings.host surroundings.world = .ok (.ok settings))
    (root : options.root = none) (config : options.config = none)
    (json : isJson options settings = true) (text : String) :
    (runParse surroundings options text).stdout =
      lines [(Answer.ofParse text (Expr.parse text settings.maxDepth)).indented] := by
  unfold runParse withSettings
  rw [settingsFor_eq root config, loaded]
  exact stdout_parseUnder json text

end Program

theorem Service.isWritable_standardMaxDice : Text.isWritable standardMaxDice = true := by
  decide +kernel

theorem Service.canBeTold_standardMaxDice : Limits.CanBeTold (some standardMaxDice) :=
  fun _ inForce => Option.some.inj inForce ▸ .inl isWritable_standardMaxDice

/-- **What the service answers to a call for a detailed roll.** -/
theorem Service.answer_roll (fresh : Twister) (seeded : (seed <|> settings.seed) = some effective)
    (text : String) :
    ((Service.ofSettings settings).answer fresh (.roll text seed true)).1 =
      Answer.ofRoll true (rollDetailed Twister.source (.ofSeed effective)
        ⟨some (settings.maxDice.getD standardMaxDice), settings.maxDepth⟩ text).outcome := by
  simp only [answer, ofSettings, seeded, generator, Option.elim_some]

/-! ## The main statement -/

/-- **The command line and the service give the same answers.**

The settings are those that are found from the working directory, or the standard ones. The command
line gives neither a directory nor a settings file nor a limit of dice. The seed that it gives, or
else that of the settings, is also the seed of the call.

The command line prints the answer of the detailed roll: in JSON the object, and as text what the
text of the object is. If the settings have a limit of dice, this is the answer of the service. If
they have none, the service answers with what the command line prints under the limit of the
service; this is the answer without a limit unless a roll of more dice is reached, and then it is
the refusal of such a roll. The answers about the reading of a notation are always the same.

Both print their answers as texts of JSON, the command line over several lines and the service on
one. Either text tells the object. -/
theorem surfaces_agree (surroundings : Surroundings) (settings : Settings)
    (loaded : Program.serviceSettings surroundings.host surroundings.world =
      .ok (.ok settings))
    (options : CommandLine.Options) (seed : Option Int) (fresh : Twister) (text : String) :
    let service := Service.ofSettings settings
    let plain := options.plain seed
    (∀ effective : Int, (seed <|> settings.seed) = some effective →
      let generator := Twister.ofSeed effective
      let payload := Answer.ofRoll true (rollDetailed Twister.source generator
        ⟨settings.maxDice, settings.maxDepth⟩ text).outcome
      let answer := (service.answer fresh (.roll text seed true)).1
      let reached := reachedRolls Twister.source generator settings.maxDepth text
      (Program.runRoll surroundings plain text).stdout = Program.printed plain settings payload ∧
        (settings.maxDice.isSome → answer = payload) ∧
        (settings.maxDice = none →
          let capped := plain.limited Service.standardMaxDice
          (Program.runRoll surroundings capped text).stdout =
              Program.printed capped settings answer ∧
            ((∀ count ∈ reached, count ≤ Service.standardMaxDice) → answer = payload) ∧
            ((∃ count ∈ reached, Service.standardMaxDice < count) →
              ∃ count ∈ reached, Service.standardMaxDice < count ∧
                answer = Answer.failure "roll"
                  (.rollCount count (some Service.standardMaxDice))))) ∧
      (Program.isJson plain settings = true →
        (Program.runParse surroundings plain text).stdout =
          Program.lines [(service.answer fresh (.parse text)).1.indented]) ∧
      Function.Injective (fun value : Json => Program.lines [value.indented]) ∧
      Function.Injective Json.compact := by
  intro service plain
  refine ⟨?_, ?_, Program.lines_indented_injective, Json.compact_injective⟩
  · intro effective seeded generator payload answer reached
    have given : Program.seedFor plain settings = .ok (some effective) := by
      rw [Program.seedFor_plain, seeded]
    have answered : answer = Answer.ofRoll true (rollDetailed Twister.source generator
        ⟨some (settings.maxDice.getD Service.standardMaxDice), settings.maxDepth⟩
          text).outcome :=
      Service.answer_roll fresh seeded text
    refine ⟨?_, fun configured => ?_, fun unlimited => ?_⟩
    · exact Program.stdout_runRoll loaded rfl rfl
        (fun _ absent => CommandLine.NumberOption.noConfusion absent)
        CommandLine.NumberOption.noConfusion given text
    · obtain ⟨limit, configured⟩ := Option.isSome_iff_exists.mp configured
      simp only [answered, payload, configured, Option.getD_some]
    · intro capped
      simp only [unlimited, Option.getD_none] at answered
      refine ⟨?_, fun kept => ?_, fun broken => ?_⟩
      · have given' : Program.seedFor capped settings = .ok (some effective) := given
        have short : ∀ limit, capped.maxDice = .number limit → Text.isWritable limit = true := by
          rintro _ ⟨⟩
          exact Service.isWritable_standardMaxDice
        rw [answered]
        exact Program.stdout_runRoll loaded rfl rfl short CommandLine.NumberOption.noConfusion
          given' text
      · simp only [answered, payload, unlimited]
        rw [rollDetailed_eq_of_forall_le kept]
      · obtain ⟨count, member, beyond, refused⟩ := rollDetailed_of_exists_lt (by decide) broken
        have told := rollDetailed_told Twister.fair_source.fairDice Twister.answers_source
          Service.canBeTold_standardMaxDice refused
        have itself := (Fault.told_eq_or _).resolve_right (told.ne_unwritable _)
        refine ⟨count, member, beyond, ?_⟩
        rw [answered, refused, itself]
        rfl
  · intro json
    exact Program.stdout_runParse loaded rfl rfl json text

/-- Surroundings without any file and without a transport. -/
def Surroundings.bare : Surroundings where
  world := ⟨.ofFiles [] [["games"]], ["games"]⟩
  host := Settings.plainHost
  fresh _ := ⟨#[], 0⟩
  transport := none

/-- A notation that reaches too many dice without sides is refused because of the sides by the
command line, and because of the number of dice by the service. -/
theorem surfaces_agree_up_to_limit :
    Program.serviceSettings Surroundings.bare.host Surroundings.bare.world =
        .ok (.ok .standard) ∧
      ((some 42 : Option Int) <|> Settings.standard.seed) = some 42 ∧
      (Program.runRoll .bare (CommandLine.Options.plain { json := true } (some 42))
          "10001d0").stdout =
        Program.lines [(Answer.failure "roll" (.sideCount 0)).indented] ∧
      ((Service.ofSettings .standard).answer ⟨#[], 0⟩ (.roll "10001d0" (some 42) true)).1 =
        Answer.failure "roll" (.rollCount 10001 (some 10000)) := by
  have loaded : Program.serviceSettings Surroundings.bare.host Surroundings.bare.world =
      .ok (.ok .standard) := by cbv
  have read : Expr.parse "10001d0" Settings.standard.maxDepth =
      .ok (.binary (.roll false) (.literal 10001) (.literal 0)) := by cbv
  have reached : reachedRolls Twister.source (.ofSeed 42) Settings.standard.maxDepth "10001d0" =
      [10001] := by
    unfold reachedRolls
    rw [read]
    rfl
  have flat : (rollDetailed Twister.source (.ofSeed 42)
      ⟨Settings.standard.maxDice, Settings.standard.maxDepth⟩ "10001d0").outcome =
        .error (.sideCount 0) := by
    have flat : (Fault.sideCount 0).told = .sideCount 0 :=
      Fault.told_of_isWritable (by decide +kernel)
    unfold rollDetailed play
    rw [read]
    simp only [Table.evaluate_eq]
    exact congrArg Except.error flat
  obtain ⟨prints, _, unlimited⟩ := (surfaces_agree .bare .standard loaded { json := true } (some 42)
    ⟨#[], 0⟩ "10001d0").1 42 rfl
  obtain ⟨_, _, beyond⟩ := unlimited rfl
  rw [reached] at beyond
  rw [flat] at prints
  obtain ⟨count, member, _, refused⟩ := beyond ⟨10001, List.mem_singleton_self _, by decide⟩
  obtain rfl := List.mem_singleton.mp member
  exact ⟨loaded, rfl, prints, refused⟩

end DiceNotation
