import DiceNotation.CommandLine.Request
import DiceNotation.Service
import DiceNotation.Settings.Discovery

/-!
# The program

A run of the program is a function of its surroundings and its arguments: it writes to two outputs
and ends with a code. The surroundings are a directory tree with a working directory, the host that
runs the program, generators for rolls without a seed, one for each, and the transport of the
service, if it is installed.

The codes tell a success, a notation that cannot be rolled or read, settings or arguments that
cannot be used, and a missing transport. A run that breaks down ends without a code.

Settings are taken from the file that is given, else from the directory that is given, else from
the nearest settings file above the working directory, and are the standard ones where there is
none. An option of the command line wins over a setting. A path that is given empty counts as not
given.
-/

set_option autoImplicit false

namespace DiceNotation

open CommandLine (Options Request Stop)

/-- The codes with which the program ends. -/
inductive ExitCode
  | success
  | notationFailure
  | unusable
  | missingTransport
deriving DecidableEq

/-- The number of a code. -/
def ExitCode.toNat : ExitCode → Nat
  | success => 0
  | notationFailure => 1
  | unusable => 2
  | missingTransport => 3

/-- How a run ends. -/
inductive Ending
  | exit (code : ExitCode)
  | brokenDown (breakdown : Breakdown)
deriving DecidableEq

/-- What a run writes, what its service does, and how it ends. -/
structure Run where
  ending : Ending
  stdout : String := ""
  stderr : String := ""
  service : Option ServiceRun := none

/-- What a run depends on besides its arguments. -/
structure Surroundings where
  world : World
  host : Host
  fresh : Nat → Twister
  transport : Option Transport

namespace Program

/-- Some texts, each on a line of its own. -/
def lines (texts : List String) : String :=
  String.join (texts.map (· ++ "\n"))

/-- The lines of a log. -/
def logLines (verbose : Bool) (entries : List LogEntry) : String :=
  if verbose then lines (entries.map LogEntry.line) else ""

/-- The report of a fault, as a text of its own. -/
def faultReport (fault : Fault) (text : Option String) : String :=
  lines [fault.complaint.report text]

/-- The path that an option gives, made absolute. -/
def pathOption (world : World) (given : Option String) : Except Refusal (Option Path) :=
  match given.filter (!·.isEmpty) with
  | none => .ok none
  | some text => (world.place (Path.ofString text)).map fun place => some (.absolute place)

/-- The settings in force for some options. -/
def settingsFor (surroundings : Surroundings) (options : Options) :
    Except Breakdown (Except Settings.Defect Settings) :=
  let world := surroundings.world
  match pathOption world options.root, pathOption world options.config with
  | .error refusal, _ => .error (.refused refusal)
  | .ok _, .error refusal => .error (.refused refusal)
  | .ok none, .ok none =>
    (Settings.ofWorkingDirectory surroundings.host world).map fun settings? =>
      settings?.getD (.ok .standard)
  | .ok root, .ok config => Settings.load surroundings.host world root config

/-- The run of a command that failed: an answer on the first output, or a report on the second,
after the log. -/
def failed (command : String) (json : Bool) (code : ExitCode) (log : String) (fault : Fault)
    (text : Option String) : Run :=
  if json then
    { ending := .exit code
      stdout := lines [(Answer.failure command fault).indented]
      stderr := log }
  else { ending := .exit code, stderr := log ++ faultReport fault text }

/-- Whether the output takes the form of JSON. -/
def isJson (options : Options) (settings : Settings) : Bool :=
  options.json || settings.format == .json

/-- A finished roll on a line. -/
def rollLine (roll : DieRoll) : String :=
  let draws := ", ".intercalate (roll.draws.map toString)
  s!"{roll.count}d{roll.sides}: [{draws}] = {roll.total}"

/-- A detailed roll as text: the expression and the finished rolls where they are asked for, and
the total. -/
def rollText (showTree showRolls : Bool) (result : RollResult) : String :=
  lines ((if showTree then ["tree: " ++ result.tree.render] else []) ++
    (if showRolls then result.rolls.map rollLine else []) ++ [toString result.total])

/-- The seed in force for some options, if there is one. -/
def seedFor (options : Options) (settings : Settings) : Except Breakdown (Option Int) :=
  match options.seed with
  | .absent => .ok settings.seed
  | .empty => .error .emptySeed
  | .number seed => .ok (some seed)

/-- The limit of dice in force for some options. An option without a number admits no dice, so that
the first roll meets it. -/
def maxDiceFor (options : Options) (settings : Settings) : Option Int :=
  match options.maxDice with
  | .absent => settings.maxDice
  | .empty => some 0
  | .number limit => some limit

/-- Whether a fault comes from the comparison of a roll with a limit that is no number. -/
def meetsEmptyLimit (options : Options) : Fault → Bool
  | .rollCount _ limit => options.maxDice == .empty && limit.isSome
  | _ => false

/-- The breakdown that stands behind a fault, if it is not one to report. -/
def breakdown? (options : Options) (fault : Fault) : Option Breakdown :=
  if meetsEmptyLimit options fault then some .emptyMaxDice
  else if fault matches .unwritable _ then some .unwritable
  else none

/-- Rolls a notation on a generator under the given settings. -/
def rollOn (generator : Twister) (settings : Settings) (options : Options) (text : String) : Run :=
  let limits : Limits :=
    { maxDice := maxDiceFor options settings, maxDepth := settings.maxDepth }
  let rolled := rollDetailed Twister.source generator limits text
  let log := logLines options.verbose (LogEntry.ofTable rolled.table)
  match rolled.outcome with
  | .error fault =>
    match breakdown? options fault with
    | some breakdown => { ending := .brokenDown breakdown, stderr := log }
    | none => failed "roll" (isJson options settings) .notationFailure log fault (some text)
  | .ok result =>
    if isJson options settings then
      { ending := .exit .success, stdout := lines [(Answer.detailed result).indented]
        stderr := log }
    else
      { ending := .exit .success
        stdout := rollText (options.tree || settings.showTree) (options.rolls || settings.showRolls)
          result
        stderr := log }

/-- Rolls a notation under the given settings. -/
def rollUnder (fresh : Twister) (settings : Settings) (options : Options) (text : String) : Run :=
  match seedFor options settings with
  | .error breakdown => { ending := .brokenDown breakdown }
  | .ok seed => rollOn (Service.generator fresh seed) settings options text

/-- Reads a notation under the given settings. -/
def parseUnder (settings : Settings) (options : Options) (text : String) : Run :=
  match Expr.parse text settings.maxDepth with
  | .error fault =>
    failed "parse" (isJson options settings) .notationFailure "" fault (some text)
  | .ok tree =>
    if isJson options settings then
      { ending := .exit .success
        stdout := lines [(Answer.ofParse text (.ok tree)).indented] }
    else { ending := .exit .success, stdout := lines [tree.render] }

/-- Runs a command under the settings in force for its options, or tells why there are none. -/
def withSettings (surroundings : Surroundings) (options : Options)
    (unusable : Settings.Defect → Run) (command : Settings → Run) : Run :=
  match settingsFor surroundings options with
  | .error breakdown => { ending := .brokenDown breakdown }
  | .ok (.error defect) => unusable defect
  | .ok (.ok settings) => command settings

/-- The command that rolls a notation. -/
def runRoll (surroundings : Surroundings) (options : Options) (text : String) : Run :=
  withSettings surroundings options
    (fun defect => failed "roll" options.json .unusable "" (.settings defect) none)
    fun settings => rollUnder (surroundings.fresh 0) settings options text

/-- The command that reads a notation. -/
def runParse (surroundings : Surroundings) (options : Options) (text : String) : Run :=
  withSettings surroundings options
    (fun defect => failed "parse" options.json .unusable "" (.settings defect) none)
    fun settings => parseUnder settings options text

/-! ## The service -/

/-- How an attempt to run the service ends. -/
inductive Serving
  /-- The directory to work in cannot be entered, or its settings cannot be read. -/
  | brokenDown (breakdown : Breakdown)
  /-- The settings cannot be used. -/
  | unusable (defect : Settings.Defect)
  /-- There is no transport. -/
  | noTransport (settings : Settings)
  /-- The service ran, and the transport returned. -/
  | served (settings : Settings) (run : ServiceRun)
  /-- The service ran until the transport failed. -/
  | cutOff (settings : Settings) (run : ServiceRun) (failure : TransportFailure)

namespace Serving

/-- The log of an attempt. -/
def log : Serving → List LogEntry
  | brokenDown _ => []
  | unusable _ => []
  | noTransport settings => [.ofSettings settings]
  | served settings run => .ofSettings settings :: run.log
  | cutOff settings run _ => .ofSettings settings :: run.log

end Serving

/-- The world after a change to the directory that is given, if one is. -/
def enterRoot (world : World) (root : Option String) : Except Refusal World :=
  match pathOption world root with
  | .error refusal => .error refusal
  | .ok none => .ok world
  | .ok (some path) => world.changeTo path

/-- The settings of a service that is given none. -/
def serviceSettings (host : Host) (world : World) :
    Except Breakdown (Except Settings.Defect Settings) :=
  (Settings.ofWorkingDirectory host world).map fun settings? =>
    settings?.getD (.ok .standard)

/-- Runs the service with its settings over the transport. -/
def serveUnder (surroundings : Surroundings) (settings : Settings) : Serving :=
  match surroundings.transport with
  | none => .noTransport settings
  | some transport =>
    let service := Service.ofSettings settings
    let exchange := service.exchange surroundings.fresh transport
    let run := service.run surroundings.fresh exchange.calls
    match exchange.failure with
    | none => .served settings run
    | some failure => .cutOff settings run failure

/-- Runs the service in a directory, with the settings that are given or else with those that are
found from there. -/
def serve (surroundings : Surroundings) (root : Option String) (settings : Option Settings) :
    Serving :=
  match enterRoot surroundings.world root with
  | .error refusal => .brokenDown (.refused refusal)
  | .ok world =>
    match settings with
    | some settings => serveUnder surroundings settings
    | none =>
      match serviceSettings surroundings.host world with
      | .error breakdown => .brokenDown breakdown
      | .ok (.error defect) => .unusable defect
      | .ok (.ok settings) => serveUnder surroundings settings

/-- The report of a transport that is not installed, or not all of it. -/
def transportReport : String :=
  lines ["error: fastmcp is not installed", "hint: pip install 'droll[mcp]'"]

/-- The run of the command that runs the service, from how the attempt ends. -/
def servingRun (options : Options) (serving : Serving) : Run :=
  let log := logLines options.verbose serving.log
  match serving with
  | .brokenDown breakdown => { ending := .brokenDown breakdown, stderr := log }
  | .unusable defect =>
    { ending := .exit .unusable, stderr := log ++ faultReport (.settings defect) none }
  | .noTransport _ => { ending := .exit .missingTransport, stderr := log ++ transportReport }
  | .served _ run => { ending := .exit .success, stderr := log, service := some run }
  | .cutOff _ run .incomplete =>
    { ending := .exit .missingTransport, stderr := log ++ transportReport, service := some run }
  | .cutOff _ run .failed =>
    { ending := .brokenDown .transportFailed, stderr := log, service := some run }

/-- The command that runs the service. -/
def runServe (surroundings : Surroundings) (options : Options) : Run :=
  withSettings surroundings options
    (fun defect =>
      { ending := .exit .unusable, stderr := faultReport (.settings defect) none })
    fun settings =>
      if settings.serviceEnabled then
        servingRun options (serve surroundings options.root (some settings))
      else
        { ending := .exit .unusable
          stderr := lines
            ["error: MCP server is disabled ([mcp] enabled = false in droll.toml)"] }

/-! ## Command lines -/

/-- The text that tells the version. -/
def versionText : String := "droll 0.1.0"

/-- The run of a command line that asks for no command. -/
def stopped : Stop → Run
  | .help form => { ending := .exit .success, stdout := lines [form.synopsis] }
  | .version => { ending := .exit .success, stdout := lines [versionText] }
  | .misuse form message =>
    { ending := .exit .unusable
      stderr := lines [form.synopsis, s!"{form.program}: error: {message}"] }

/-- Runs a request. -/
def runRequest (surroundings : Surroundings) : Request → Run
  | .roll options text => runRoll surroundings options text
  | .parse options text => runParse surroundings options text
  | .serve options => runServe surroundings options

/-- Runs the program. -/
def run (surroundings : Surroundings) (arguments : List String) : Run :=
  match Request.ofArguments surroundings.host.keepsDashes arguments with
  | .error stop => stopped stop
  | .ok request => runRequest surroundings request

end Program

end DiceNotation
