import DiceNotation.Proofs.Runs.Outcomes

/-!
# How a run of the service ends

A command line that asks to run the service needs settings that can be used and that admit the
service, a directory that can be entered, and a transport. What is loaded as settings and whether
there is a transport decide on the code (`Program.servingCode`): a success only after the service
has run, the code of a missing transport only if there is none, and that of unusable settings with a
line that says what is wrong with them. A transport that is there is taken to return
(`Transport.Returns`).

The directory plays two parts. Settings are looked for in it, unless a file is given as well, and
the service works in it. If settings have been found in it, it exists. If a file is given as well,
nobody has looked at the directory before the service enters it, and a directory that cannot be
entered then breaks the run down (`CommandLine.Options.BreaksService`). That is the one reason
besides the hindrances on the way to the settings.
-/

set_option autoImplicit false

namespace DiceNotation

open CommandLine (Options Request)

/-- Why a run of the service breaks down. -/
inductive CommandLine.Options.BreaksService (surroundings : Surroundings) (options : Options) :
    Breakdown → Prop
  | settings {breakdown : Breakdown} :
      surroundings.Hinders options breakdown → BreaksService surroundings options breakdown
  /-- The directory cannot be entered. -/
  | root {settings : Settings} {path : Path} {refusal : Refusal} :
      Program.settingsFor surroundings options = .ok (.ok settings) →
      settings.serviceEnabled = true →
      Program.pathOption surroundings.world options.root = .ok (some path) →
      surroundings.world.changeTo path = .error refusal →
      BreaksService surroundings options (.refused refusal)

/-- The code for what is loaded as settings and for the transport. -/
def Program.servingCode (transport : Option Transport)
    (loaded : Except Settings.Defect Settings) : ExitCode :=
  match loaded with
  | .error _ => .unusable
  | .ok settings =>
    if settings.serviceEnabled then
      match transport with
      | none => .missingTransport
      | some _ => .success
    else .unusable

/-- What the service does under some settings over a transport. -/
def Program.served (surroundings : Surroundings) (settings : Settings) (transport : Transport) :
    ServiceRun :=
  let service := Service.ofSettings settings
  service.run surroundings.fresh (service.exchange surroundings.fresh transport).calls

/-- A run ends as the service does. Settings that cannot be used, and those that do not admit the
service, are told on the second output. Only a run that ends in a success has run the service, with
the calls of the transport. -/
structure Run.Serves (run : Run) (surroundings : Surroundings)
    (loaded : Except Settings.Defect Settings) : Prop where
  ending : run.ending = .exit (Program.servingCode surroundings.transport loaded)
  unusable : run.ending = .exit .unusable →
    ∃ report, run.stderr = Program.lines ["error: " ++ report]
  missingTransport : run.ending = .exit .missingTransport → surroundings.transport = none
  success : run.ending = .exit .success → ∃ settings transport, loaded = .ok settings ∧
    surroundings.transport = some transport ∧
      run.service = some (Program.served surroundings settings transport)
  notServed : run.ending ≠ .exit .success → run.service = none

/-- A run of the service ends in one of three codes. -/
theorem Program.servingCode_ne_notationFailure (transport : Option Transport)
    (loaded : Except Settings.Defect Settings) :
    servingCode transport loaded ≠ .notationFailure := by
  unfold servingCode
  split
  · decide
  · split
    · split <;> decide
    · decide

variable {surroundings : Surroundings} {options : Options} {settings : Settings}

namespace Program

/-- A run that reports that the service cannot be run ends as the service does, if that is the code.
-/
theorem serves_unusable {run : Run} {loaded : Except Settings.Defect Settings}
    (code : servingCode surroundings.transport loaded = .unusable)
    (ending : run.ending = .exit .unusable)
    (reported : ∃ report, run.stderr = lines ["error: " ++ report]) (silent : run.service = none) :
    run.Serves surroundings loaded := by
  refine ⟨by rw [code, ending], fun _ => reported, ?_, ?_, fun _ => silent⟩
  · intro other
    cases ending.symm.trans other
  · intro other
    cases ending.symm.trans other

/-- The run of a service whose settings cannot be used tells the defect. -/
theorem serves_of_defect {defect : Settings.Defect}
    (loading : settingsFor surroundings options = .ok (.error defect)) :
    (runServe surroundings options).Serves surroundings (.error defect) := by
  obtain ⟨report, same⟩ := exists_report (Fault.settings defect).complaint none
  simp only [runServe, withSettings, loading]
  refine serves_unusable rfl rfl ⟨report, ?_⟩ rfl
  rw [faultReport, same]

/-- The run of a service that the settings do not admit tells so. -/
theorem serves_of_disabled (loading : settingsFor surroundings options = .ok (.ok settings))
    (disabled : settings.serviceEnabled = false) :
    (runServe surroundings options).Serves surroundings (.ok settings) := by
  simp only [runServe, withSettings, loading, disabled, Bool.false_eq_true, if_false]
  refine serves_unusable ?_ rfl
    ⟨"MCP server is disabled ([mcp] enabled = false in droll.toml)", ?_⟩ rfl
  · simp only [servingCode, disabled, Bool.false_eq_true, if_false]
  · decide

/-- A service that the settings admit is run over the transport, once its directory is entered. -/
theorem serves_of_enabled {world : World}
    (returns : ∀ transport ∈ surroundings.transport, transport.Returns)
    (loading : settingsFor surroundings options = .ok (.ok settings))
    (enabled : settings.serviceEnabled = true)
    (entered : enterRoot surroundings.world options.root = .ok world) :
    (runServe surroundings options).Serves surroundings (.ok settings) := by
  simp only [runServe, withSettings, loading, enabled, if_true, serve, entered, serveUnder]
  cases installed : surroundings.transport with
  | none =>
      refine ⟨?_, ?_, fun _ => installed, ?_, fun _ => rfl⟩
      · simp only [servingRun, servingCode, enabled, if_true, installed]
      · intro other
        cases other
      · intro other
        cases other
  | some transport =>
      have whole : ((Service.ofSettings settings).exchange surroundings.fresh transport).failure =
          none := returns transport installed _
      simp only [whole]
      refine ⟨?_, ?_, ?_, fun _ => ⟨settings, transport, rfl, installed, rfl⟩,
        fun other => absurd rfl other⟩
      · simp only [servingRun, servingCode, enabled, if_true, installed]
      · intro other
        cases other
      · intro other
        cases other

/-- A service whose directory cannot be entered breaks down. -/
theorem ending_of_refused {refusal : Refusal}
    (loading : settingsFor surroundings options = .ok (.ok settings))
    (enabled : settings.serviceEnabled = true)
    (refused : enterRoot surroundings.world options.root = .error refusal) :
    (runServe surroundings options).ending = .brokenDown (.refused refusal) := by
  simp only [runServe, withSettings, loading, enabled, if_true, serve, refused, servingRun]

/-- A path that an option gives is a place in the tree. -/
theorem exists_place_of_pathOption {world : World} {given : Option String} {path : Path}
    (placed : pathOption world given = .ok (some path)) :
    ∃ place, path = .absolute place ∧ ".." ∉ place := by
  unfold pathOption World.place at placed
  split at placed
  · cases placed
  · split at placed
    · cases placed
    · cases placed
      exact ⟨_, rfl, Path.not_mem_removeDots _⟩

/-- **A directory that settings were found in can be entered.** -/
theorem changeTo_of_loaded {path : Path}
    (root : pathOption surroundings.world options.root = .ok (some path))
    (config : options.config.filter (!·.isEmpty) = none)
    (loading : settingsFor surroundings options = .ok (.ok settings)) :
    ∃ world, surroundings.world.changeTo path = .ok world := by
  obtain ⟨place, rfl, dots⟩ : ∃ place, path = .absolute place ∧ ".." ∉ place :=
    exists_place_of_pathOption root
  have file : settingsFile surroundings.world options =
      .ok (some (.absolute (place ++ [Settings.fileName]))) := by
    unfold settingsFile pathOption
    rw [config]
    unfold pathOption at root
    rw [root]
    rfl
  rw [settingsFor_eq_ofFile, file] at loading
  obtain ⟨data, ⟨content, text, found, _⟩, _⟩ := Settings.ofFile_eq_ok_iff.mp loading
  exact ⟨_, World.changeTo_parent dots found⟩

end Program

namespace CommandLine.Options.BreaksService

variable {breakdown other : Breakdown}

/-- A service that has its settings breaks down only if they admit it and its directory cannot be
entered. -/
theorem refused {loaded : Except Settings.Defect Settings}
    (ordinary : surroundings.Ordinary options)
    (loading : Program.settingsFor surroundings options = .ok loaded)
    (broken : options.BreaksService surroundings breakdown) :
    ∃ settings refusal, loaded = .ok settings ∧ settings.serviceEnabled = true ∧
      Program.enterRoot surroundings.world options.root = .error refusal ∧
        breakdown = .refused refusal := by
  cases broken with
  | settings hinders =>
      exact absurd hinders (Surroundings.not_hinders_of_loaded ordinary loading _)
  | root loaded enabled root refused =>
      refine ⟨_, _, Except.ok.inj (loading.symm.trans loaded), enabled, ?_, rfl⟩
      rw [Program.enterRoot, root]
      exact refused

theorem of_refused {refusal : Refusal} (ordinary : surroundings.Ordinary options)
    (loading : Program.settingsFor surroundings options = .ok (.ok settings))
    (enabled : settings.serviceEnabled = true)
    (refused : Program.enterRoot surroundings.world options.root = .error refusal) :
    options.BreaksService surroundings (.refused refusal) := by
  rcases Program.pathOption_cases ordinary.stands ordinary.root with
    ⟨_, none⟩ | ⟨place, _, root, _⟩
  · rw [Program.enterRoot, none] at refused
    cases refused
  · rw [Program.enterRoot, root] at refused
    exact .root loading enabled root refused

/-- There is one reason at most why a run of the service breaks down. -/
theorem unique (ordinary : surroundings.Ordinary options)
    (broken : options.BreaksService surroundings breakdown)
    (broken' : options.BreaksService surroundings other) : breakdown = other := by
  cases broken with
  | settings hinders =>
      cases broken' with
      | settings hinders' => exact hinders.unique ordinary hinders'
      | root loading _ _ _ =>
          exact absurd hinders (Surroundings.not_hinders_of_loaded ordinary loading _)
  | root loading _ root refused =>
      obtain ⟨_, _, _, _, refused', rfl⟩ := broken'.refused ordinary loading
      rw [Program.enterRoot, root] at refused'
      exact congrArg Breakdown.refused (Except.error.inj (refused.symm.trans refused'))

end CommandLine.Options.BreaksService

/-- **A run of the service breaks down for a reason, or it ends as the service does.** -/
theorem Program.runServe_cases (returns : ∀ transport ∈ surroundings.transport, transport.Returns)
    (ordinary : surroundings.Ordinary options) :
    (∃ breakdown, (runServe surroundings options).ending = .brokenDown breakdown ∧
        options.BreaksService surroundings breakdown) ∨
      ((∀ breakdown, ¬ options.BreaksService surroundings breakdown) ∧
        ∃ loaded, settingsFor surroundings options = .ok loaded ∧
          (runServe surroundings options).Serves surroundings loaded) := by
  rcases loading : settingsFor surroundings options with breakdown | defect | settings
  · refine .inl ⟨breakdown, ?_, .settings ((settingsFor_eq_error_iff ordinary).mp loading)⟩
    simp only [runServe, withSettings, loading]
  · refine .inr ⟨fun breakdown broken => ?_, .error defect, rfl, serves_of_defect loading⟩
    obtain ⟨_, _, impossible, _⟩ := broken.refused ordinary loading
    cases impossible
  · cases enabled : settings.serviceEnabled with
    | false =>
        refine .inr ⟨fun breakdown broken => ?_, .ok settings, rfl,
          serves_of_disabled loading enabled⟩
        obtain ⟨_, _, ⟨⟩, admitted, _⟩ := broken.refused ordinary loading
        cases enabled.symm.trans admitted
    | true =>
        cases entered : enterRoot surroundings.world options.root with
        | error refusal =>
            exact .inl ⟨.refused refusal, ending_of_refused loading enabled entered,
              .of_refused ordinary loading enabled entered⟩
        | ok world =>
            refine .inr ⟨fun breakdown broken => ?_, .ok settings, rfl,
              serves_of_enabled returns loading enabled entered⟩
            obtain ⟨_, _, _, _, refused, _⟩ := broken.refused ordinary loading
            cases entered.symm.trans refused

/-! ## The main statement -/

/-- **A run of the service ends in a code, or it breaks down for a reason that is listed.**

The arguments are accepted as a request to run the service, in ordinary surroundings: the working
directory exists, there are no links, no path holds the null character, and the text of a settings
file is read as TOML or is malformed. If there is a transport, it returns. The run breaks down
exactly for the reasons that `BreaksService` lists. If no file is given besides the directory, these
are the hindrances on the way to the settings alone. If there is no reason, settings are loaded or a
defect is found, and the run ends as the service does (`Run.Serves`). -/
theorem serving_run_ends (surroundings : Surroundings) (arguments : List String) (options : Options)
    (accepted : Request.ofArguments surroundings.host.keepsDashes arguments = .ok (.serve options))
    (ordinary : surroundings.Ordinary options)
    (returns : ∀ transport ∈ surroundings.transport, transport.Returns) :
    let run := Program.run surroundings arguments
    (∀ breakdown, run.ending = .brokenDown breakdown ↔
      options.BreaksService surroundings breakdown) ∧
    (options.config.filter (!·.isEmpty) = none →
      ∀ breakdown, options.BreaksService surroundings breakdown →
        surroundings.Hinders options breakdown) ∧
    ((∀ breakdown, ¬ options.BreaksService surroundings breakdown) →
      ∃ loaded, Program.settingsFor surroundings options = .ok loaded ∧
        run.Serves surroundings loaded) ∧
    run.ending ≠ .exit .notationFailure := by
  intro run
  have same : run = Program.runServe surroundings options := by
    simp only [run, Program.run, accepted, Program.runRequest]
  rw [same]
  have cases := Program.runServe_cases returns ordinary
  refine ⟨fun breakdown => ?_, fun config breakdown broken => ?_, fun sound => ?_, ?_⟩
  · rcases cases with ⟨broken, ending, reason⟩ | ⟨sound, _, _, serves⟩
    · rw [ending]
      exact ⟨fun equal => Ending.brokenDown.inj equal ▸ reason,
        fun reason' => congrArg Ending.brokenDown (reason.unique ordinary reason')⟩
    · rw [serves.ending]
      exact ⟨fun impossible => Ending.noConfusion impossible,
        fun broken => absurd broken (sound breakdown)⟩
  · cases broken with
    | settings hinders => exact hinders
    | root loading _ root refused =>
        obtain ⟨world, entered⟩ := Program.changeTo_of_loaded root config loading
        cases entered.symm.trans refused
  · rcases cases with ⟨broken, _, reason⟩ | ⟨_, serves⟩
    · exact absurd reason (sound broken)
    · exact serves
  · rcases cases with ⟨broken, ending, _⟩ | ⟨_, loaded, _, serves⟩
    · rw [ending]
      exact fun impossible => Ending.noConfusion impossible
    · rw [serves.ending]
      exact fun equal =>
        Program.servingCode_ne_notationFailure _ loaded (Ending.exit.inj equal)

/-- A transport that brings some calls, whatever they are answered with. -/
def Transport.bringing (calls : List Call) : Transport :=
  fun _ => ⟨calls, none⟩

/-- A service that the settings admit is run over its transport. -/
theorem serving_run_ends_after_call :
    let transport := Transport.bringing [.parse "d6"]
    let surroundings := Surroundings.ofTable "version = 1\n" [("version", .integer 1)]
      (some transport)
    let run := Program.run surroundings ["mcp", "serve"]
    Request.ofArguments surroundings.host.keepsDashes ["mcp", "serve"] = .ok (.serve {}) ∧
      surroundings.Ordinary {} ∧ transport.Returns ∧ run.ending = .exit .success ∧
        run.service =
          some ((Service.ofSettings .standard).run surroundings.fresh [.parse "d6"]) := by
  intro transport surroundings run
  have accepted : Request.ofArguments surroundings.host.keepsDashes ["mcp", "serve"] =
      .ok (.serve {}) := Request.ofArguments_eq_ok (by decide +kernel)
  have ordinary : surroundings.Ordinary {} := Surroundings.ordinary_ofTable_of_none rfl rfl
  have loading : Program.settingsFor surroundings {} = .ok (.ok .standard) :=
    Program.settingsFor_ofTable (Program.settingsFile_worldOf _ rfl rfl)
  have returns : transport.Returns := fun _ => rfl
  have all : ∀ transport ∈ surroundings.transport, transport.Returns := by
    rintro _ ⟨⟩
    exact returns
  obtain ⟨_, hinders, ends, _⟩ :=
    serving_run_ends surroundings ["mcp", "serve"] {} accepted ordinary all
  have sound (breakdown : Breakdown) :
      ¬ ({} : Options).BreaksService surroundings breakdown := fun broken =>
    Surroundings.not_hinders_of_loaded ordinary loading _ (hinders rfl breakdown broken)
  obtain ⟨loaded, loading', serves⟩ := ends sound
  cases loading.symm.trans loading'
  have ending : run.ending = .exit .success := serves.ending
  obtain ⟨settings, other, same, installed, served⟩ := serves.success ending
  cases same
  cases installed
  exact ⟨accepted, ordinary, returns, ending, served⟩

/-- A directory that does not exist breaks the run of the service down if a file is given as well:
it does not report that the directory cannot be used. -/
theorem serving_run_breaks_down :
    let surroundings := Surroundings.ofTable "version = 1\n" [("version", .integer 1)] none
    let arguments := ["mcp", "serve", "--root", "missing", "--config", "droll.toml"]
    let options : Options := { root := some "missing", config := some "droll.toml" }
    Request.ofArguments surroundings.host.keepsDashes arguments = .ok (.serve options) ∧
      surroundings.Ordinary options ∧
      (Program.run surroundings arguments).ending =
        .brokenDown (.refused ⟨.absolute ["games", "missing"], .missing⟩) := by
  intro surroundings arguments options
  have accepted : Request.ofArguments surroundings.host.keepsDashes arguments =
      .ok (.serve options) :=
    Request.ofArguments_eq_ok (by decide +kernel)
  have root : (Path.ofString "missing").holdsNull = false := by cbv
  have config : (Path.ofString "droll.toml").holdsNull = false := by cbv
  have ordinary : surroundings.Ordinary options :=
    Surroundings.ordinary_ofTable (by rintro _ ⟨⟩; exact root) (by rintro _ ⟨⟩; exact config)
  have file : Program.settingsFile surroundings.world options =
      .ok (some (.absolute ["games", Settings.fileName])) := by cbv
  have loading : Program.settingsFor surroundings options = .ok (.ok .standard) :=
    Program.settingsFor_ofTable file
  have refused : Program.enterRoot surroundings.world options.root =
      .error ⟨.absolute ["games", "missing"], .missing⟩ := by cbv
  refine ⟨accepted, ordinary, ?_⟩
  have enabled : Settings.standard.serviceEnabled = true := rfl
  simp only [Program.run, accepted, Program.runRequest, Program.runServe, Program.withSettings,
    loading, enabled, if_true, Program.serve, refused, Program.servingRun]

end DiceNotation
