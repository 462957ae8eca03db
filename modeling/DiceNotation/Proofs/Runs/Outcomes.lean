import DiceNotation.Proofs.Answers.Printing
import DiceNotation.Proofs.Evaluation.DiceLimit
import DiceNotation.Proofs.Evaluation.Reports
import DiceNotation.Proofs.Runs.Hindrances
import DiceNotation.Proofs.Runs.Numbers

/-!
# How a run on a notation ends

A command line that asks to roll or to read a notation has an outcome that can be said without the
program: settings that cannot be used, a fault of the notation under the settings in force, or
neither (`Request.code`). In force are the settings of the file, with the options of the command
line over them (`CommandLine.NumberOption.over`).

The run reports this outcome (`Run.Reports`). The code is that of the outcome. In JSON the first
output holds one object whose member `ok` says whether the code is that of a success, and the second
output holds nothing but the log. As text a failure is a report on the second output.

Some runs break down instead. `Request.BreaksDown` lists why: a hindrance on the way to the
settings, and, on an early host that drops the value of an option, a seed without a number and a
limit of dice without a number that a roll is held against. Nothing else breaks a run down. In
particular no fault is too long to be told (`Fault.IsTold`), and every nesting limit that is loaded
is one that a reader accepts.
-/

set_option autoImplicit false

namespace DiceNotation

open CommandLine (Options Request)

/-- The number in force: that of the option if it is given, and else the configured one. An option
whose value was dropped gives none. -/
def CommandLine.NumberOption.over (configured : Option Int) : CommandLine.NumberOption → Option Int
  | absent => configured
  | empty => none
  | number value => some value

namespace CommandLine.Request

/-- A request to roll or to read a notation. -/
def IsNotation : Request → Prop
  | roll _ _ => True
  | parse _ _ => True
  | serve _ => False

/-- The generator of a roll under some settings. -/
def generator (fresh : Twister) (settings : Settings) (options : Options) : Twister :=
  Service.generator fresh (options.seed.over settings.seed)

/-- The limits of a roll under some settings. -/
def limits (settings : Settings) (options : Options) : Limits :=
  ⟨options.maxDice.over settings.maxDice, settings.maxDepth⟩

/-- The fault of a notation that is rolled or read under some settings, if it has one. -/
def fault? (fresh : Twister) (settings : Settings) : Request → Option Fault
  | roll options text =>
    match (rollDetailed Twister.source (generator fresh settings options) (limits settings options)
      text).outcome with
    | .error fault => some fault
    | .ok _ => none
  | parse _ text =>
    match Expr.parse text settings.maxDepth with
    | .error fault => some fault
    | .ok _ => none
  | serve _ => none

/-- The code for what is loaded as settings and for the notation under them. -/
def code (fresh : Twister) (loaded : Except Settings.Defect Settings) (request : Request) :
    ExitCode :=
  match loaded with
  | .error _ => .unusable
  | .ok settings =>
    match request.fault? fresh settings with
    | some _ => .notationFailure
    | none => .success

/-- Whether the output takes the form of JSON: the options or the settings ask for it. -/
def isJson (loaded : Except Settings.Defect Settings) (request : Request) : Bool :=
  match loaded with
  | .error _ => request.options.json
  | .ok settings => Program.isJson request.options settings

/-- A roll of at least one die is held against a limit of dice without a number. -/
def MeetsEmptyLimit (fresh : Twister) (settings : Settings) (options : Options) (text : String) :
    Prop :=
  options.maxDice = .empty ∧ ∃ count ∈ reachedRolls Twister.source
    (generator fresh settings options) settings.maxDepth text, 1 ≤ count

/-- Why a run on a notation breaks down. -/
inductive BreaksDown (surroundings : Surroundings) : Request → Breakdown → Prop
  | settings {request : Request} {breakdown : Breakdown} :
      surroundings.Hinders request.options breakdown → BreaksDown surroundings request breakdown
  | seed {options : Options} {text : String} {settings : Settings} :
      Program.settingsFor surroundings options = .ok (.ok settings) → options.seed = .empty →
      BreaksDown surroundings (.roll options text) .emptySeed
  | maxDice {options : Options} {text : String} {settings : Settings} :
      Program.settingsFor surroundings options = .ok (.ok settings) → options.seed ≠ .empty →
      MeetsEmptyLimit (surroundings.fresh 0) settings options text →
      BreaksDown surroundings (.roll options text) .emptyMaxDice

end CommandLine.Request

/-- A run reports a code. In JSON it writes one object, which says whether the code is that of a
success, and as text a failure is a report and nothing else. What is left of the second output is
the log. -/
structure Run.Reports (run : Run) (isJson : Bool) (log : String) (code : ExitCode) : Prop where
  ending : run.ending = .exit code
  json : isJson = true → run.stderr = log ∧ ∃ members,
    run.stdout = Program.lines [(Json.object members).indented] ∧
      (Json.object members).member? "ok" = some (.boolean (code == .success))
  failure : isJson = false → code ≠ .success → run.stdout = "" ∧
    ∃ report, run.stderr = log ++ Program.lines ["error: " ++ report]
  success : isJson = false → code = .success → run.stderr = log

namespace Program

variable {surroundings : Surroundings} {settings : Settings} {options : Options} {text : String}

/-! ## Reports -/

theorem exists_report (complaint : Complaint) (text : Option String) :
    ∃ report, complaint.report text = "error: " ++ report := by
  unfold Complaint.report Complaint.headline
  exact ⟨_, String.intercalate_cons_append⟩

theorem logLines_nil (verbose : Bool) : logLines verbose [] = "" := by
  cases verbose <;> rfl

/-- **A failure is reported with its code.** -/
theorem reports_failed {command : String} {json : Bool} {code : ExitCode} {log : String}
    {fault : Fault} {text : Option String} (fails : code ≠ .success) :
    (failed command json code log fault text).Reports json log code := by
  have other : (code == .success) = false := beq_false_of_ne fails
  cases json with
  | true =>
      refine ⟨rfl, fun _ => ⟨rfl, _, rfl, ?_⟩, Bool.noConfusion, Bool.noConfusion⟩
      rw [other]
      rfl
  | false =>
      obtain ⟨report, same⟩ := exists_report fault.complaint text
      refine ⟨rfl, Bool.noConfusion, fun _ _ => ⟨rfl, report, ?_⟩,
        fun _ success => absurd success fails⟩
      show log ++ lines [fault.complaint.report text] = _
      rw [same]

/-- A success is reported if it writes nothing to the second output besides the log and, in JSON, an
object that tells it to the first. -/
theorem reports_succeeded {run : Run} {json : Bool} {log : String}
    (ending : run.ending = .exit .success) (stderr : run.stderr = log)
    (answered : json = true → ∃ members,
      run.stdout = lines [(Json.object members).indented] ∧
        (Json.object members).member? "ok" = some (.boolean true)) :
    run.Reports json log .success :=
  ⟨ending, fun isJson => ⟨stderr, answered isJson⟩, fun _ fails => absurd rfl fails,
    fun _ _ => stderr⟩

/-- The run that reads a notation reports whether it can be read. -/
theorem reports_parseUnder (fresh : Twister) (settings : Settings) (options : Options)
    (text : String) :
    (parseUnder settings options text).Reports (isJson options settings) ""
      (Request.code fresh (.ok settings) (.parse options text)) := by
  simp only [parseUnder, Request.code, Request.fault?]
  cases Expr.parse text settings.maxDepth with
  | error fault => exact reports_failed (by decide)
  | ok tree =>
      cases isJson options settings with
      | true => exact reports_succeeded rfl rfl fun _ => ⟨_, rfl, rfl⟩
      | false => exact reports_succeeded rfl rfl Bool.noConfusion

/-! ## The limit of dice -/

/-- A limit of dice in force can be told if the options of a request give it, or usable settings. -/
theorem canBeTold_over {keeps : Bool} {host : Host} (numbered : options.Numbered keeps)
    (usable : Settings.IsUsable host settings) :
    Limits.CanBeTold (options.maxDice.over settings.maxDice) := by
  intro limit inForce
  cases given : options.maxDice with
  | absent =>
      rw [given] at inForce
      exact .inr (usable.one_le_maxDice limit inForce)
  | empty =>
      rw [given] at inForce
      cases inForce
  | number other =>
      rw [given] at inForce
      cases inForce
      exact .inl (numbered.maxDice.writable _ given)

variable {fresh : Twister}

/-- Unless a roll is held against a limit without a number, the limit in force is that of the
options over the settings, and no fault breaks the run down. -/
theorem rollDetailed_of_not_meets (limited : Limits.CanBeTold (maxDiceFor options settings))
    (free : ¬ Request.MeetsEmptyLimit fresh settings options text) :
    let generator := Request.generator fresh settings options
    let rolled := rollDetailed Twister.source generator
      ⟨maxDiceFor options settings, settings.maxDepth⟩ text
    rolled = rollDetailed Twister.source generator (Request.limits settings options) text ∧
      ∀ fault, rolled.outcome = .error fault → breakdown? options fault = none := by
  intro generator rolled
  by_cases empty : options.maxDice = .empty
  · have dropped : options.maxDice.over settings.maxDice = none := by rw [empty]; rfl
    have zero : maxDiceFor options settings = some 0 := by
      rw [maxDiceFor, empty]
    have kept : ∀ count ∈ reachedRolls Twister.source generator settings.maxDepth text,
        count ≤ 0 := by
      intro count member
      by_contra positive
      exact free ⟨empty, count, member, by omega⟩
    have same : rolled =
        rollDetailed Twister.source generator (Request.limits settings options) text := by
      simp only [rolled, Request.limits, dropped, zero]
      exact rollDetailed_eq_of_forall_le kept
    refine ⟨same, fun fault fails => ?_⟩
    rw [breakdown?_of_rollDetailed limited fails]
    rw [same] at fails
    have unlimited : Limits.CanBeTold (Request.limits settings options).maxDice := by
      rw [Request.limits, dropped]
      exact nofun
    have told := rollDetailed_told Twister.fair_source.fairDice Twister.answers_source unlimited
      fails
    -- without a limit no refusal tells one
    refine if_neg fun meets => ?_
    cases told with
    | rollCount inForce _ =>
        have absent := inForce.elim id fun same => same.trans dropped
        simp [meetsEmptyLimit, absent] at meets
    | placed position placed => cases fault <;> first | cases meets | cases placed
    | sideCount | overflow => cases meets
  · have same : maxDiceFor options settings = options.maxDice.over settings.maxDice := by
      unfold maxDiceFor CommandLine.NumberOption.over
      cases given : options.maxDice with
      | empty => exact absurd given empty
      | _ => rfl
    refine ⟨by simp only [rolled, Request.limits, same], fun fault fails => ?_⟩
    exact breakdown?_eq_none limited empty fails

/-- A roll that is held against a limit without a number breaks the run down. -/
theorem ending_of_meets (limited : Limits.CanBeTold (maxDiceFor options settings))
    (meets : Request.MeetsEmptyLimit fresh settings options text) :
    (rollOn (Request.generator fresh settings options) settings options text).ending =
      .brokenDown .emptyMaxDice := by
  obtain ⟨empty, count, member, positive⟩ := meets
  have zero : maxDiceFor options settings = some 0 := by
    rw [maxDiceFor, empty]
  obtain ⟨refused, _, _, outcome⟩ := rollDetailed_of_exists_lt (Int.le_refl 0)
    ⟨count, member, (by omega : 0 < count)⟩
  rw [zero] at limited
  have told := rollDetailed_told Twister.fair_source.fairDice Twister.answers_source limited outcome
  have itself := (Fault.told_eq_or _).resolve_right (told.ne_unwritable _)
  rw [ending_rollOn, zero, outcome, itself]
  simp [breakdown?, meetsEmptyLimit, empty]

/-- **The run that rolls a notation reports whether it can be rolled**, unless a roll is held
against a limit without a number. -/
theorem reports_rollOn (limited : Limits.CanBeTold (maxDiceFor options settings))
    (free : ¬ Request.MeetsEmptyLimit fresh settings options text) :
    ∃ entries,
      (rollOn (Request.generator fresh settings options) settings options text).Reports
        (isJson options settings) (logLines options.verbose entries)
        (Request.code fresh (.ok settings) (.roll options text)) := by
  obtain ⟨same, plain⟩ := rollDetailed_of_not_meets limited free
  simp only [rollOn, Request.code, Request.fault?, ← same]
  generalize rollDetailed Twister.source (Request.generator fresh settings options)
    ⟨maxDiceFor options settings, settings.maxDepth⟩ text = rolled at plain
  refine ⟨LogEntry.ofTable rolled.table, ?_⟩
  cases outcome : rolled.outcome with
  | error fault =>
      simp only [plain fault outcome]
      exact reports_failed (by decide)
  | ok result =>
      cases isJson options settings with
      | true => exact reports_succeeded rfl rfl fun _ => ⟨_, rfl, rfl⟩
      | false => exact reports_succeeded rfl rfl Bool.noConfusion

end Program

/-! ## Breaking down -/

section

variable {surroundings : Surroundings} {request : Request} {keeps : Bool}

/-- There is one reason at most why a run breaks down. -/
theorem CommandLine.Request.BreaksDown.unique {breakdown other : Breakdown}
    (ordinary : surroundings.Ordinary request.options)
    (broken : request.BreaksDown surroundings breakdown)
    (broken' : request.BreaksDown surroundings other) : breakdown = other := by
  cases broken with
  | settings hindered =>
      cases broken' with
      | settings hindered' => exact hindered.unique ordinary hindered'
      | seed loading _ | maxDice loading _ _ =>
          exact absurd hindered (Surroundings.not_hinders_of_loaded ordinary loading _)
  | seed loading empty =>
      cases broken' with
      | settings hindered =>
          exact absurd hindered (Surroundings.not_hinders_of_loaded ordinary loading _)
      | seed _ _ => rfl
      | maxDice _ given _ => exact absurd empty given
  | maxDice loading given meets =>
      cases broken' with
      | settings hindered =>
          exact absurd hindered (Surroundings.not_hinders_of_loaded ordinary loading _)
      | seed _ empty => exact absurd empty given
      | maxDice _ _ _ => rfl

namespace Program

/-- A run that is kept from its settings breaks down. -/
theorem ending_of_hindered {breakdown : Breakdown} (isNotation : request.IsNotation)
    (loading : settingsFor surroundings request.options = .error breakdown) :
    (runRequest surroundings request).ending = .brokenDown breakdown := by
  cases request with
  | roll options text | parse options text =>
      have loading : settingsFor surroundings options = .error breakdown := loading
      simp only [runRequest, runRoll, runParse, withSettings, loading]
  | serve options => cases isNotation

/-- A run whose settings cannot be used reports so. -/
theorem reports_of_defect {defect : Settings.Defect} (isNotation : request.IsNotation)
    (loading : settingsFor surroundings request.options = .ok (.error defect)) :
    (runRequest surroundings request).Reports (request.isJson (.error defect))
      (logLines request.options.verbose [])
      (request.code (surroundings.fresh 0) (.error defect)) := by
  rw [logLines_nil]
  cases request with
  | roll options text | parse options text =>
      have loading : settingsFor surroundings options = .ok (.error defect) := loading
      simp only [runRequest, runRoll, runParse, withSettings, loading]
      exact reports_failed (by decide)
  | serve options => cases isNotation

variable {options : Options} {settings : Settings}

/-- A run that reads a notation under its settings reports its outcome. -/
theorem reports_parse {text : String}
    (loading : settingsFor surroundings options = .ok (.ok settings)) :
    (runRequest surroundings (.parse options text)).Reports (isJson options settings)
      (logLines options.verbose []) (Request.code (surroundings.fresh 0) (.ok settings)
        (.parse options text)) := by
  simp only [runRequest, runParse, withSettings, loading, logLines_nil]
  exact reports_parseUnder (surroundings.fresh 0) settings options text

theorem runRequest_roll {text : String}
    (loading : settingsFor surroundings options = .ok (.ok settings))
    (given : options.seed ≠ .empty) :
    runRequest surroundings (.roll options text) =
      rollOn (Request.generator (surroundings.fresh 0) settings options) settings options text := by
  have seeded : seedFor options settings = .ok (options.seed.over settings.seed) := by
    unfold seedFor CommandLine.NumberOption.over
    cases seed : options.seed with
    | empty => exact absurd seed given
    | _ => rfl
  simp only [runRequest, runRoll, withSettings, loading, rollUnder, seeded]
  rfl

/-- A run that rolls a notation under its settings breaks down at an option without a number, or it
reports its outcome. -/
theorem runRequest_roll_cases {text : String} (numbered : options.Numbered keeps)
    (ordinary : surroundings.Ordinary options)
    (loading : settingsFor surroundings options = .ok (.ok settings)) :
    (∃ breakdown,
        (runRequest surroundings (.roll options text)).ending = .brokenDown breakdown ∧
          (Request.roll options text).BreaksDown surroundings breakdown) ∨
      ((∀ breakdown, ¬ (Request.roll options text).BreaksDown surroundings breakdown) ∧
        ∃ entries, (runRequest surroundings (.roll options text)).Reports
          (isJson options settings) (logLines options.verbose entries)
          (Request.code (surroundings.fresh 0) (.ok settings) (.roll options text))) := by
  by_cases empty : options.seed = .empty
  · refine .inl ⟨.emptySeed, ?_, .seed loading empty⟩
    simp only [runRequest, runRoll, withSettings, loading, rollUnder, seedFor, empty]
  · have limited : Limits.CanBeTold (maxDiceFor options settings) :=
      canBeTold_maxDiceFor numbered.maxDice.writable
        (isUsable_of_settingsFor loading).one_le_maxDice
    rw [runRequest_roll loading empty]
    by_cases meets : Request.MeetsEmptyLimit (surroundings.fresh 0) settings options text
    · exact .inl ⟨.emptyMaxDice, ending_of_meets limited meets, .maxDice loading empty meets⟩
    · refine .inr ⟨fun breakdown broken => ?_, reports_rollOn limited meets⟩
      cases broken with
      | settings hindered => exact Surroundings.not_hinders_of_loaded ordinary loading _ hindered
      | seed _ given => exact empty given
      | maxDice loaded _ meets' =>
          cases loading.symm.trans loaded
          exact meets meets'

/-- **A run on a notation breaks down for a reason, or there is none and it reports its outcome.**
-/
theorem runRequest_cases (numbered : request.options.Numbered keeps)
    (isNotation : request.IsNotation) (ordinary : surroundings.Ordinary request.options) :
    (∃ breakdown, (runRequest surroundings request).ending = .brokenDown breakdown ∧
        request.BreaksDown surroundings breakdown) ∨
      ((∀ breakdown, ¬ request.BreaksDown surroundings breakdown) ∧
        ∃ loaded entries, settingsFor surroundings request.options = .ok loaded ∧
          (runRequest surroundings request).Reports (request.isJson loaded)
            (logLines request.options.verbose entries)
            (request.code (surroundings.fresh 0) loaded)) := by
  rcases loading : settingsFor surroundings request.options with breakdown | defect | settings
  · exact .inl ⟨breakdown, ending_of_hindered isNotation loading,
      .settings ((settingsFor_eq_error_iff ordinary).mp loading)⟩
  · refine .inr ⟨fun breakdown broken => ?_, .error defect, [], rfl,
      reports_of_defect isNotation loading⟩
    cases broken with
    | settings hindered => exact Surroundings.not_hinders_of_loaded ordinary loading _ hindered
    | seed loaded _ | maxDice loaded _ _ => cases loading.symm.trans loaded
  · cases request with
    | serve options => cases isNotation
    | parse options text =>
        refine .inr ⟨fun breakdown broken => ?_, .ok settings, [], rfl, reports_parse loading⟩
        cases broken with
        | settings hindered => exact Surroundings.not_hinders_of_loaded ordinary loading _ hindered
    | roll options text =>
        rcases runRequest_roll_cases numbered ordinary loading with
          broken | ⟨sound, entries, reports⟩
        · exact .inl broken
        · exact .inr ⟨sound, .ok settings, entries, rfl, reports⟩

end Program

end

/-- Under settings in force, a fault of a notation can be told. -/
theorem CommandLine.Request.told_fault? {fresh : Twister} {settings : Settings} {request : Request}
    {fault : Fault} (limited : Limits.CanBeTold (request.options.maxDice.over settings.maxDice))
    (fails : request.fault? fresh settings = some fault) :
    fault.IsTold (request.options.maxDice.over settings.maxDice) := by
  cases request with
  | roll options text =>
      simp only [fault?] at fails
      split at fails
      · rename_i outcome
        cases fails
        exact rollDetailed_told Twister.fair_source.fairDice Twister.answers_source limited outcome
      · cases fails
  | parse options text =>
      simp only [fault?] at fails
      split at fails
      · rename_i outcome
        cases fails
        exact Expr.told_parse outcome
      · cases fails
  | serve options => cases fails

/-! ## The main statement -/

/-- A host that keeps the values of options keeps a run from its reasons to break down, but for
those on the way to the settings. -/
theorem CommandLine.Request.BreaksDown.hinders {surroundings : Surroundings} {request : Request}
    {breakdown : Breakdown} (numbered : request.options.Numbered true)
    (broken : request.BreaksDown surroundings breakdown) :
    surroundings.Hinders request.options breakdown := by
  cases broken with
  | settings hindered => exact hindered
  | seed _ empty => exact absurd empty (numbered.seed.kept rfl)
  | maxDice _ _ meets => exact absurd meets.1 (numbered.maxDice.kept rfl)

/-- **A run on a notation reports its outcome, or it breaks down for a reason that is listed.**

The arguments are accepted as a request to roll or to read a notation, in ordinary surroundings: the
working directory exists, there are no links, no path holds the null character, and the text of a
settings file is read as TOML or is malformed. The run breaks down exactly for the reasons that
`BreaksDown` lists, and on a host that keeps the values of options only for those on the way to the
settings: the system refuses to look for a settings file, or a version is too long to be told. If
there is no reason, settings are loaded or a defect is found, and the run reports the code of what
is loaded and of the notation under it: that of unusable settings, that of a fault, or that of a
success.

The nesting limit of settings that are loaded is one that a reader accepts, and a fault under them
can be told. -/
theorem notation_run_reports (surroundings : Surroundings) (arguments : List String)
    (request : Request)
    (accepted : Request.ofArguments surroundings.host.keepsDashes arguments = .ok request)
    (isNotation : request.IsNotation) (ordinary : surroundings.Ordinary request.options) :
    let run := Program.run surroundings arguments
    (∀ breakdown, run.ending = .brokenDown breakdown ↔
      request.BreaksDown surroundings breakdown) ∧
    (surroundings.host.keepsDashes = true → ∀ breakdown,
      request.BreaksDown surroundings breakdown → surroundings.Hinders request.options breakdown) ∧
    ((∀ breakdown, ¬ request.BreaksDown surroundings breakdown) →
      ∃ loaded entries, Program.settingsFor surroundings request.options = .ok loaded ∧
        run.Reports (request.isJson loaded) (Program.logLines request.options.verbose entries)
          (request.code (surroundings.fresh 0) loaded)) ∧
    ∀ settings, Program.settingsFor surroundings request.options = .ok (.ok settings) →
      DepthLimit.ofInt? surroundings.host.greatestDepth settings.maxDepth.levels =
          some settings.maxDepth ∧
        ∀ fault, request.fault? (surroundings.fresh 0) settings = some fault →
          fault.IsTold (request.options.maxDice.over settings.maxDice) := by
  intro run
  have numbered := Request.numbered_of_ofArguments accepted
  have same : run = Program.runRequest surroundings request := by
    simp only [run, Program.run, accepted]
  refine ⟨fun breakdown => ?_, fun kept breakdown broken => ?_, fun sound => ?_,
    fun settings loading => ?_⟩
  · rw [same]
    rcases Program.runRequest_cases numbered isNotation ordinary with
      ⟨broken, ending, reason⟩ | ⟨sound, _, _, _, reports⟩
    · rw [ending]
      exact ⟨fun equal => Ending.brokenDown.inj equal ▸ reason,
        fun reason' => congrArg Ending.brokenDown (reason.unique ordinary reason')⟩
    · rw [reports.ending]
      exact ⟨fun impossible => Ending.noConfusion impossible,
        fun broken => absurd broken (sound breakdown)⟩
  · rw [kept] at numbered
    exact broken.hinders numbered
  · rw [same]
    rcases Program.runRequest_cases numbered isNotation ordinary with
      ⟨broken, _, reason⟩ | ⟨_, reports⟩
    · exact absurd reason (sound broken)
    · exact reports
  · have usable := Program.isUsable_of_settingsFor loading
    exact ⟨usable.ofInt?_maxDepth,
      fun fault => Request.told_fault? (Program.canBeTold_over numbered usable)⟩

/-- A roll of no dice is a failure of the notation, and is answered in JSON if the settings ask for
it. -/
theorem notation_run_reports_no_dice :
    let data : Toml.Table :=
      [("version", .integer 1), ("output", .table [("format", .string "json")])]
    let surroundings := Surroundings.ofTable "version = 1\n[output]\nformat = 'json'\n" data none
    let run := Program.run surroundings ["roll", "0d6"]
    Request.ofArguments surroundings.host.keepsDashes ["roll", "0d6"] = .ok (.roll {} "0d6") ∧
      surroundings.Ordinary {} ∧
      run.ending = .exit .notationFailure ∧ run.stderr = "" ∧ ∃ members,
        run.stdout = Program.lines [(Json.object members).indented] ∧
          (Json.object members).member? "ok" = some (.boolean false) := by
  intro data surroundings run
  have accepted : Request.ofArguments surroundings.host.keepsDashes ["roll", "0d6"] =
      .ok (.roll {} "0d6") := by cbv
  have ordinary : surroundings.Ordinary {} := Surroundings.ordinary_ofTable_of_none rfl rfl
  let settings : Settings := { format := .json }
  have loading : Program.settingsFor surroundings {} = .ok (.ok settings) := by
    rw [Program.settingsFor_ofTable (Program.settingsFile_worldOf _ rfl rfl)]
    rfl
  have read : Expr.parse "0d6" (Request.limits settings {}).maxDepth =
      .ok (.binary (.roll false) (.literal 0) (.literal 6)) := by cbv
  have outcome : (rollDetailed Twister.source (Request.generator (surroundings.fresh 0) settings {})
      (Request.limits settings {}) "0d6").outcome = .error (.rollCount 0 none) := by
    have none : (Fault.rollCount 0 none).told = .rollCount 0 none :=
      Fault.told_of_isWritable (by decide +kernel)
    unfold rollDetailed play
    rw [read]
    simp only [Table.evaluate_eq]
    exact congrArg Except.error none
  have sound (breakdown : Breakdown) :
      ¬ (Request.roll {} "0d6").BreaksDown surroundings breakdown := by
    intro broken
    cases broken with
    | settings hindered => exact Surroundings.not_hinders_of_loaded ordinary loading _ hindered
    | seed _ given => cases given
    | maxDice _ _ meets => cases meets.1
  obtain ⟨loaded, entries, loading', reported⟩ := (notation_run_reports surroundings
    ["roll", "0d6"] (.roll {} "0d6") accepted trivial ordinary).2.2.1 sound
  cases loading.symm.trans loading'
  have code : (Request.roll {} "0d6").code (surroundings.fresh 0) (.ok settings) =
      .notationFailure := by
    simp only [Request.code, Request.fault?, outcome]
  rw [code] at reported
  obtain ⟨silent, members, printed, answered⟩ := reported.json rfl
  exact ⟨accepted, ordinary, reported.ending, silent, members, printed, answered⟩

/-- A version that is too long to be told breaks a run down: it does not report that the settings
cannot be used. -/
theorem notation_run_breaks_down :
    let surroundings := Surroundings.ofTable Settings.longVersionText Settings.longVersion none
    Request.ofArguments surroundings.host.keepsDashes ["parse", "1"] = .ok (.parse {} "1") ∧
      surroundings.Ordinary {} ∧
      (Program.run surroundings ["parse", "1"]).ending = .brokenDown .unwritable := by
  intro surroundings
  have accepted : Request.ofArguments surroundings.host.keepsDashes ["parse", "1"] =
      .ok (.parse {} "1") := by
    have kept : surroundings.host.keepsDashes = true := rfl
    rw [kept]
    cbv
  have loading : Program.settingsFor surroundings {} = .error .unwritable := by
    rw [Program.settingsFor_ofTable (Program.settingsFile_worldOf _ rfl rfl)]
    exact Settings.ofData_longVersion
  refine ⟨accepted, Surroundings.ordinary_ofTable_of_none rfl rfl, ?_⟩
  simp only [Program.run, accepted, Program.runRequest, Program.runParse, Program.withSettings,
    loading]

end DiceNotation
