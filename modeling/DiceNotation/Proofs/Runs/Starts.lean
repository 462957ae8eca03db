import DiceNotation.Proofs.Runs.Serving
import DiceNotation.Proofs.Settings.Nearest

/-!
# The two ways to start the service

The service is started by a command, or directly. Without options and without arguments both take
their settings from the nearest settings file at the working directory or above, and from the
standard ones if there is none (`Program.settingsFor_cases`). What keeps them from their settings,
and what is wrong with these, is the same for both, and a service that is run is the same service
(`Program.runServe_eq`).

They differ in one point. The command asks whether the settings admit the service, and does not run
it otherwise; the direct start does not ask (`starts_take_same_settings`, `starts_differ`).
-/

set_option autoImplicit false

namespace DiceNotation

variable {surroundings : Surroundings}

namespace Program

/-- A service that is given nothing takes the settings that a command without options takes. -/
theorem serviceSettings_eq (surroundings : Surroundings) :
    serviceSettings surroundings.host surroundings.world = settingsFor surroundings {} :=
  rfl

/-- **Without options the settings are those of the nearest settings file**, or the standard ones if
there is none. A search is refused only at its first candidate. -/
theorem settingsFor_cases (stands : surroundings.world.Stands) :
    let start := Settings.searchPlace surroundings.world
    (∃ obstacle, Settings.Refused surroundings.world start obstacle ∧
      settingsFor surroundings {} =
        .error (.refused ⟨.absolute (start ++ [Settings.fileName]), obstacle⟩)) ∨
    (∀ obstacle, ¬ Settings.Refused surroundings.world start obstacle) ∧
      ((∃ place, Settings.IsNearest surroundings.world start place ∧
        settingsFor surroundings {} = Settings.ofFile surroundings.host surroundings.world
          (.absolute (place ++ [Settings.fileName]))) ∨
      (∀ place, place <+: start → ¬ Settings.Holds surroundings.world place) ∧
        settingsFor surroundings {} = .ok (.ok .standard)) := by
  intro start
  have chosen : settingsFile surroundings.world {} =
      Settings.chosenFile surroundings.world none none := rfl
  rw [settingsFor_eq_ofFile, chosen]
  rcases Settings.chosenFile_cases stands with
    ⟨obstacle, refused, ended⟩ | ⟨free, ⟨place, nearest, found⟩ | ⟨none, ended⟩⟩
  · rw [ended]
    exact .inl ⟨obstacle, refused, rfl⟩
  · rw [found]
    exact .inr ⟨free, .inl ⟨place, nearest, rfl⟩⟩
  · rw [ended]
    exact .inr ⟨free, .inr ⟨none, rfl⟩⟩

/-- A service that is given nothing is run under the settings found, whatever they say of it. -/
theorem serve_eq (surroundings : Surroundings) :
    serve surroundings none none =
      match settingsFor surroundings {} with
      | .error breakdown => .brokenDown breakdown
      | .ok (.error defect) => .unusable defect
      | .ok (.ok settings) => serveUnder surroundings settings := by
  rw [← serviceSettings_eq]
  rfl

/-- The command without options runs the service as it is run directly, if the settings admit it. -/
theorem runServe_eq (surroundings : Surroundings) :
    runServe surroundings {} =
      match settingsFor surroundings {} with
      | .ok (.ok settings) =>
        if settings.serviceEnabled then servingRun {} (serve surroundings none none)
        else
          { ending := .exit .unusable
            stderr := lines
              ["error: MCP server is disabled ([mcp] enabled = false in droll.toml)"] }
      | _ => servingRun {} (serve surroundings none none) := by
  rw [serve_eq]
  unfold runServe withSettings
  rcases settingsFor surroundings {} with breakdown | defect | settings <;> rfl

/-- What the command that runs the service does with what is loaded as settings, beside the direct
start. -/
def StartAlike (surroundings : Surroundings) (command : Run) (direct : Serving) :
    Except Breakdown (Except Settings.Defect Settings) → Prop
  | .error breakdown =>
    command = { ending := .brokenDown breakdown } ∧ direct = .brokenDown breakdown
  | .ok (.error defect) =>
    command = { ending := .exit .unusable
                stderr := faultReport (.settings defect) none } ∧
      direct = .unusable defect
  | .ok (.ok settings) =>
    direct = serveUnder surroundings settings ∧
      (settings.serviceEnabled = true → command = servingRun {} direct) ∧
      (settings.serviceEnabled = false →
        command.ending = .exit .unusable ∧ command.service = none)

theorem startAlike (surroundings : Surroundings) :
    StartAlike surroundings (runServe surroundings {}) (serve surroundings none none)
      (settingsFor surroundings {}) := by
  rw [runServe_eq, serve_eq]
  rcases settingsFor surroundings {} with breakdown | defect | settings
  · exact ⟨rfl, rfl⟩
  · exact ⟨rfl, rfl⟩
  · refine ⟨rfl, fun enabled => ?_, fun disabled => ?_⟩
    · simp only [enabled, if_true]
    · simp only [disabled, Bool.false_eq_true, if_false, true_and]

theorem run_serve (surroundings : Surroundings) :
    run surroundings ["mcp", "serve"] = runServe surroundings {} := by
  have accepted : CommandLine.Request.ofArguments surroundings.host.keepsDashes ["mcp", "serve"] =
      .ok (.serve {}) := CommandLine.Request.ofArguments_eq_ok (by
    cases surroundings.host.keepsDashes <;> decide +kernel)
  simp only [run, accepted, runRequest]

end Program

/-! ## The main statement -/

/-- **Both ways to start the service take the same decision, but for the question whether it is to
run at all.** The working directory exists, and there are no links. The search for the settings of
both starts in the working directory, or in the one above if the system refuses to look at it. The
settings of both are those of the nearest settings file, or the standard ones if there is none, or
the system refuses to look for the first candidate. What breaks one start down breaks the other
down, and settings that cannot be used end both with the same defect. Under settings that can be
used, the direct start runs the service with their limits and their seed, if there is a transport;
the command runs the same service if the settings admit it, and none if they do not. -/
theorem starts_take_same_settings (surroundings : Surroundings)
    (stands : surroundings.world.Stands) :
    let world := surroundings.world
    let loaded := Program.settingsFor surroundings {}
    let command := Program.run surroundings ["mcp", "serve"]
    let direct := Program.serve surroundings none none
    let start := Settings.searchPlace world
    Program.serviceSettings surroundings.host world = loaded ∧
    ((∃ obstacle, world.Refuses world.workingDirectory obstacle) ∧
        start = world.workingDirectory.dropLast ∨
      (∀ obstacle, ¬ world.Refuses world.workingDirectory obstacle) ∧
        start = world.workingDirectory) ∧
    ((∃ obstacle, Settings.Refused world start obstacle ∧
        loaded = .error (.refused ⟨.absolute (start ++ [Settings.fileName]), obstacle⟩)) ∨
      (∀ obstacle, ¬ Settings.Refused world start obstacle) ∧
        ((∃ place, Settings.IsNearest world start place ∧
          loaded = Settings.ofFile surroundings.host world
            (.absolute (place ++ [Settings.fileName]))) ∨
        (∀ place, place <+: start → ¬ Settings.Holds world place) ∧
          loaded = .ok (.ok .standard))) ∧
    Program.StartAlike surroundings command direct loaded ∧
    ∀ settings transport, loaded = .ok (.ok settings) → surroundings.transport = some transport →
      let run := Program.served surroundings settings transport
      let exchange := (Service.ofSettings settings).exchange surroundings.fresh transport
      (direct = match exchange.failure with
        | none => .served settings run
        | some failure => .cutOff settings run failure) ∧
      (settings.serviceEnabled = true → command.service = some run) := by
  intro world loaded command direct start
  have alike : Program.StartAlike surroundings command direct loaded := by
    unfold command
    rw [Program.run_serve]
    exact Program.startAlike surroundings
  refine ⟨Program.serviceSettings_eq surroundings, Settings.searchPlace_cases stands,
    Program.settingsFor_cases stands, alike, ?_⟩
  intro settings transport loading installed run exchange
  rw [loading] at alike
  obtain ⟨served, enabled, -⟩ := alike
  have ran : direct = match exchange.failure with
      | none => .served settings run
      | some failure => .cutOff settings run failure := by
    rw [served, Program.serveUnder, installed]
    rfl
  refine ⟨ran, fun admitted => ?_⟩
  rw [enabled admitted, ran]
  cases exchange.failure with
  | none => rfl
  | some failure => cases failure <;> rfl

/-- Both starts run the service with the limit of the settings file. -/
theorem starts_take_limit :
    let text := "version = 1\n[roll]\nmax_dice = 6\n"
    let data : Toml.Table := [("version", .integer 1), ("roll", .table [("max_dice", .integer 6)])]
    let calls : List Call := [.roll "7d6" (some 1) false]
    let surroundings := Surroundings.ofTable text data (some (.bringing calls))
    let run := (Service.ofSettings { maxDice := some 6 }).run surroundings.fresh calls
    surroundings.world.Stands ∧
      Program.serve surroundings none none = .served { maxDice := some 6 } run ∧
        (Program.run surroundings ["mcp", "serve"]).service = some run := by
  intro text data calls surroundings run
  have stands : surroundings.world.Stands := Settings.stands_worldOf _
  have loading : Program.settingsFor surroundings {} = .ok (.ok { maxDice := some 6 }) :=
    (Program.settingsFor_ofTable (Program.settingsFile_worldOf _ rfl rfl)).trans rfl
  obtain ⟨-, -, -, -, served⟩ := starts_take_same_settings surroundings stands
  obtain ⟨direct, command⟩ := served _ _ loading rfl
  exact ⟨stands, direct, command rfl⟩

/-- Settings that do not admit the service keep the command from it, but not the direct start. -/
theorem starts_differ :
    let text := "version = 1\n[mcp]\nenabled = false\n"
    let data : Toml.Table :=
      [("version", .integer 1), ("mcp", .table [("enabled", .boolean false)])]
    let surroundings := Surroundings.ofTable text data (some (.bringing []))
    Toml.parse text = .ok data ∧
      Program.settingsFor surroundings {} = .ok (.ok { serviceEnabled := false }) ∧
        (Program.run surroundings ["mcp", "serve"]).service = none ∧
          Program.serve surroundings none none = .served { serviceEnabled := false } ⟨[], []⟩ := by
  intro text data surroundings
  have loading : Program.settingsFor surroundings {} = .ok (.ok { serviceEnabled := false }) :=
    (Program.settingsFor_ofTable (Program.settingsFile_worldOf _ rfl rfl)).trans rfl
  have read : Toml.parse text = .ok data := by cbv
  refine ⟨read, loading, ?_, ?_⟩
  · rw [Program.run_serve, Program.runServe_eq, loading]
    rfl
  · rw [Program.serve_eq, loading]
    rfl

end DiceNotation
