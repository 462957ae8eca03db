import DiceNotation.Proofs.Answers.Agreement
import DiceNotation.Proofs.Evaluation.Interruptions
import DiceNotation.Proofs.Evaluation.Noting
import DiceNotation.Proofs.Runs.Serving
import DiceNotation.Proofs.Runs.Verbosity

/-!
# The log of a roll

With the option for the log, the command that rolls a notation writes one line for every draw of its
table to the second output, before anything else. The draws of the table are the answers of the
generator, and the recorded rolls account for them as far as they have come
(`verbose_log_is_faithful`). Without the option the run is the same but for these lines
(`Program.rollOn_verbosely`).
-/

set_option autoImplicit false

namespace DiceNotation

open CommandLine (Options Request)

namespace Program

variable {settings : Settings} {options : Options} {text : String}

/-- What a roll reports on the second output besides its log: as text the fault, if there is one. -/
def rollReport (settings : Settings) (options : Options) (text : String)
    (outcome : Except Fault RollResult) : String :=
  match outcome with
  | .ok _ => ""
  | .error fault =>
    if (breakdown? options fault).isSome || isJson options settings then ""
    else faultReport fault (some text)

/-- **The second output is the log and then the report.** -/
theorem stderr_rollOn (generator : Twister) :
    let rolled := rollDetailed Twister.source generator
      ⟨maxDiceFor options settings, settings.maxDepth⟩ text
    (rollOn generator settings options text).stderr =
      logLines options.verbose (LogEntry.ofTable rolled.table) ++
        rollReport settings options text rolled.outcome := by
  intro rolled
  simp only [rollOn, rollReport]
  cases rolled.outcome with
  | error fault =>
      cases broken : breakdown? options fault with
      | some breakdown => simp [broken, rolled]
      | none => cases json : isJson options settings <;> simp [broken, failed, rolled]
  | ok result =>
      cases isJson options settings <;> simp [rolled]

/-- The log has no part in how a roll ends and in what it writes to the first output. -/
theorem rollOn_verbosely (generator : Twister) :
    (rollOn generator settings options.verbosely text).ending =
        (rollOn generator settings options text).ending ∧
      (rollOn generator settings options.verbosely text).stdout =
        (rollOn generator settings options text).stdout := by
  have json : isJson options.verbosely settings = isJson options settings := rfl
  have broken (fault : Fault) :
      breakdown? options.verbosely fault = breakdown? options fault := by
    cases fault <;> rfl
  have limit : maxDiceFor options.verbosely settings = maxDiceFor options settings := rfl
  simp only [rollOn, limit]
  cases (rollDetailed Twister.source generator
      ⟨maxDiceFor options settings, settings.maxDepth⟩ text).outcome with
  | error fault =>
      simp only [broken, json]
      cases breakdown? options fault <;> cases isJson options settings <;> exact ⟨rfl, rfl⟩
  | ok result =>
      simp only [json]
      cases isJson options settings <;> exact ⟨rfl, rfl⟩

/-- Without its log, a roll reports the same with the option for the log. -/
theorem rollReport_verbosely (outcome : Except Fault RollResult) :
    rollReport settings options.verbosely text outcome =
      rollReport settings options text outcome := by
  cases outcome with
  | error fault => cases fault <;> rfl
  | ok result => rfl

/-- One line for every draw, with the sides of the die and the number that was drawn. -/
def drawLines (draws : List Draw) : String :=
  lines (draws.map fun draw => s!"droll.interpreter: d{draw.sides} -> {draw.value}")

/-- **The log has one line for every answer of the source.** -/
theorem logLines_ofTable {σ : Type} (source : Source σ) (state : σ) (limits : Limits)
    (verbose : Bool) :
    let answers := (rollDetailed source.noted (state, []) limits text).table.source.2
    logLines verbose (LogEntry.ofTable (rollDetailed source state limits text).table) =
      if verbose then drawLines answers else "" := by
  intro answers
  have noted : answers = (rollDetailed source state limits text).table.draws.toList :=
    notes_rollDetailed source state limits text
  rw [noted, logLines, LogEntry.ofTable, List.map_map]
  rfl

/-! ## Runs that roll -/

/-- Some arguments ask to roll a notation, and the settings and the seed for it are there. -/
structure Rolls (surroundings : Surroundings) (arguments : List String) (options : Options)
    (text : String) (settings : Settings) (seed : Option Int) : Prop where
  asks : Request.ofArguments surroundings.host.keepsDashes arguments = .ok (.roll options text)
  loaded : settingsFor surroundings options = .ok (.ok settings)
  seeded : seedFor options settings = .ok seed

namespace Rolls

variable {surroundings : Surroundings} {arguments rest : List String} {seed : Option Int}

theorem run_eq (rolls : Rolls surroundings arguments options text settings seed) :
    run surroundings arguments =
      rollOn (Service.generator (surroundings.fresh 0) seed) settings options text := by
  simp only [run, rolls.asks, runRequest, runRoll, withSettings, rolls.loaded, rollUnder,
    rolls.seeded]

/-- What a run that rolls writes to the second output. -/
theorem stderr_run (rolls : Rolls surroundings arguments options text settings seed) :
    let limits : Limits := ⟨maxDiceFor options settings, settings.maxDepth⟩
    let generator := Service.generator (surroundings.fresh 0) seed
    let answers := (rollDetailed Twister.source.noted (generator, []) limits text).table.source.2
    (run surroundings arguments).stderr =
      (if options.verbose then drawLines answers else "") ++
        rollReport settings options text
          (rollDetailed Twister.source generator limits text).outcome := by
  intro limits generator answers
  rw [rolls.run_eq, stderr_rollOn, logLines_ofTable]

/-- With the option for the log the same is rolled. -/
theorem verbosely (rolls : Rolls surroundings ("roll" :: rest) options text settings seed) :
    Rolls surroundings ("roll" :: "-v" :: rest) options.verbosely text settings seed where
  asks := by
    rw [CommandLine.ofArguments_verbosely, rolls.asks]
    rfl
  loaded := rolls.loaded
  seeded := rolls.seeded

/-- A run that does not come to its roll is the same with the option for the log. -/
theorem run_verbosely_of_not
    (never : ∀ options text settings seed,
      ¬ Rolls surroundings ("roll" :: rest) options text settings seed) :
    run surroundings ("roll" :: "-v" :: rest) = run surroundings ("roll" :: rest) := by
  unfold run
  rw [CommandLine.ofArguments_verbosely]
  cases asks : Request.ofArguments surroundings.host.keepsDashes ("roll" :: rest) with
  | error stop => rfl
  | ok request =>
      obtain ⟨options, text, rfl⟩ := CommandLine.exists_roll_of_ofArguments asks
      have same : settingsFor surroundings options.verbosely = settingsFor surroundings options :=
        rfl
      simp only [Except.map, Request.verbosely, runRequest, runRoll, withSettings, same]
      cases loaded : settingsFor surroundings options with
      | error breakdown => rfl
      | ok loading =>
          cases loading with
          | error defect => rfl
          | ok settings =>
              have given : seedFor options.verbosely settings = seedFor options settings := rfl
              simp only [rollUnder, given]
              cases seeded : seedFor options settings with
              | error breakdown => rfl
              | ok seed => exact absurd ⟨asks, loaded, seeded⟩ (never options text settings seed)

end Rolls

end Program

open Program in
/-- **The log is a faithful trace of the draws.** With the option for the log, the command that
rolls a notation ends as it does without and writes the same to the first output. If it comes to the
roll, whatever the settings and the seed are, the second output begins with one line for every
answer of the generator, in their order, and the report of a failure follows.

These answers are the draws of all recorded rolls, if the roll succeeds. If it fails, those already
made for the failing roll come behind the draws of the recorded ones. Such draws have been made only
if their sum left the range: the failing roll is the last one that was reached, and the last draw is
the one with which the sum left it. -/
theorem verbose_log_is_faithful (surroundings : Surroundings) (rest : List String) :
    let quiet := run surroundings ("roll" :: rest)
    let verbose := run surroundings ("roll" :: "-v" :: rest)
    verbose.ending = quiet.ending ∧ verbose.stdout = quiet.stdout ∧
    ((∀ options text settings seed,
        ¬ Rolls surroundings ("roll" :: rest) options text settings seed) →
      verbose.stderr = quiet.stderr) ∧
    ∀ options text settings seed, Rolls surroundings ("roll" :: rest) options text settings seed →
      let limits : Limits := ⟨maxDiceFor options settings, settings.maxDepth⟩
      let generator := Service.generator (surroundings.fresh 0) seed
      let rolled := rollDetailed Twister.source generator limits text
      let answers := (rollDetailed Twister.source.noted (generator, []) limits text).table.source.2
      let log := drawLines answers
      let report := rollReport settings options text rolled.outcome
      verbose.stderr = log ++ report ∧
      quiet.stderr = (if options.verbose then log else "") ++ report ∧
      (∀ result, rolled.outcome = .ok result →
        answers = result.rolls.flatMap DieRoll.drawn) ∧
      ∀ fault, rolled.outcome = .error fault →
        ∃ made, answers = rolled.table.rolls.toList.flatMap DieRoll.drawn ++ made ∧
          (made = [] ∨ ∃ tree arrival, Expr.parse text limits.maxDepth = .ok tree ∧
            (tree.trail Twister.source ⟨true, limits.maxDice⟩
              ⟨generator, #[], #[]⟩).arrivals.getLast? = some arrival ∧
            arrival.table.rolls = rolled.table.rolls ∧ arrival.Overflows made fault) := by
  intro quiet verbose
  by_cases comes : ∃ options text settings seed,
      Rolls surroundings ("roll" :: rest) options text settings seed
  · obtain ⟨options, text, settings, seed, rolls⟩ := comes
    have same : verbose.ending = quiet.ending ∧ verbose.stdout = quiet.stdout := by
      simp only [verbose, quiet, rolls.run_eq, rolls.verbosely.run_eq]
      exact rollOn_verbosely _
    refine ⟨same.1, same.2, fun never => absurd rolls (never options text settings seed), ?_⟩
    intro options text settings seed rolls limits generator rolled answers log report
    have noted : answers = rolled.table.draws.toList :=
      notes_rollDetailed Twister.source generator limits text
    have accounts := rollDetailed_draws Twister.fair_source.fairDice Twister.answers_source
      generator limits text
    have logged : verbose.stderr = log ++ report :=
      rolls.verbosely.stderr_run.trans (congrArg (log ++ ·) (rollReport_verbosely _))
    exact ⟨logged, rolls.stderr_run, noted ▸ accounts.1, noted ▸ accounts.2⟩
  · have never : ∀ options text settings seed,
        ¬ Rolls surroundings ("roll" :: rest) options text settings seed :=
      fun options text settings seed rolls => comes ⟨options, text, settings, seed, rolls⟩
    have same : verbose = quiet := Rolls.run_verbosely_of_not never
    rw [same]
    exact ⟨rfl, rfl, fun _ => rfl, fun options text settings seed rolls =>
      absurd rolls (never options text settings seed)⟩

open Program in
/-- The second die of a roll leaves the range. The log tells it, behind the die of the roll before
it and the first die. -/
theorem verbose_log_of_overflow :
    let surroundings : Surroundings :=
      { Surroundings.bare with fresh := fun _ => ⟨.replicate 5 0x80000000, 0⟩ }
    let text := "1d6+2d9223372036854775807"
    let report := "error: Result 9804373793926300682 is outside the 64-bit integer range\n"
    Rolls surroundings ["roll", text] {} text .standard none ∧
      (run surroundings ["roll", text]).stderr = report ∧
      (run surroundings ["roll", "-v", text]).stderr =
        "droll.interpreter: d6 -> 5\n" ++
        "droll.interpreter: d9223372036854775807 -> 4902186896963150341\n" ++
        "droll.interpreter: d9223372036854775807 -> 4902186896963150341\n" ++ report := by
  intro surroundings text report
  have rolls : Rolls surroundings ["roll", text] {} text .standard none :=
    ⟨Request.ofArguments_eq_ok (by decide +kernel), by cbv, rfl⟩
  obtain ⟨-, -, -, told⟩ := verbose_log_is_faithful surroundings [text]
  obtain ⟨verbose, quiet, -⟩ := told {} text .standard none rolls
  have answered : (rollDetailed Twister.source.noted (surroundings.fresh 0, [])
      ⟨Settings.standard.maxDice, Settings.standard.maxDepth⟩ text).table.source.2 =
        [⟨6, 5⟩, ⟨9223372036854775807, 4902186896963150341⟩,
          ⟨9223372036854775807, 4902186896963150341⟩] := by decide +kernel
  have reported : rollReport .standard {} text (rollDetailed Twister.source (surroundings.fresh 0)
      ⟨Settings.standard.maxDice, Settings.standard.maxDepth⟩ text).outcome = report := by
    decide +kernel
  refine ⟨rolls, quiet.trans ?_, verbose.trans ?_⟩
  · exact congrArg ("" ++ ·) reported
  · exact congrArg₂ (· ++ ·) (congrArg drawLines answered) reported

end DiceNotation
