import DiceNotation.Program
import DiceNotation.Toml.Reader

/-!
# The command line

The program on a real system. What it may consult of the directory tree follows from its arguments
alone, so those places are read first and the run itself is a function of what was found there. A
run rolls at most once without a seed, and the service has no transport here. A place that the
system does not let us look at counts as empty.
-/

set_option autoImplicit false

namespace DiceNotation

/-- The places above a place, from the root down to the place itself. -/
def placesAbove : List String → List (List String)
  | [] => [[]]
  | name :: rest => [] :: (placesAbove rest).map (name :: ·)

/-- The host that the program runs on here. -/
def thisHost : Host :=
  .reading Toml.parse

/-- The files that a command line may consult. -/
def consulted (workingDirectory arguments : List String) : List (List String) :=
  let options := match CommandLine.Request.ofArguments thisHost.keepsDashes arguments with
    | .ok (.roll options _) => options
    | .ok (.parse options _) => options
    | .ok (.serve options) => options
    | .error _ => {}
  let place := fun (given : Option String) =>
    given.toList.map fun text => (Path.ofString text).resolve workingDirectory
  let found := (placesAbove workingDirectory).map (· ++ [Settings.fileName])
  found ++ (place options.root).map (· ++ [Settings.fileName]) ++ place options.config

/-- What the system has at a place. A file that may not be read is there all the same. -/
def entryAt (place : List String) : IO (Option Entry) := do
  let path := (← IO.currentDir) / (Path.absolute place).display
  if ← path.isDir then return some .directory
  if ← path.pathExists then
    try
      return some (.file (some (← IO.FS.readBinFile path)))
    catch _ => return some (.file none)
  return none

/-- What the system has at some places. -/
def readTree (places : List (List String)) : IO FileTree := do
  let mut entries : List (List String × Entry) := []
  for place in places do
    match ← entryAt place with
    | some entry => entries := (place, entry) :: entries
    | none => pure ()
  return { entry? := fun place => entries.lookup place }

/-- A generator that nobody can foresee. -/
def freshGenerator : IO Twister := do
  let bytes ← IO.getRandomBytes 32
  return .ofSeed (bytes.foldl (fun value byte => value * 256 + byte.toNat) 0)

end DiceNotation

open DiceNotation in
/-- Runs the program on the arguments of the process. -/
def main (arguments : List String) : IO UInt32 := do
  let current ← IO.currentDir
  let workingDirectory := (Path.ofString current.toString).parts
  let files := consulted workingDirectory arguments
  let tree ← readTree (files.flatMap placesAbove).eraseDups
  let run := Program.run
    { world := ⟨tree, workingDirectory⟩
      host := thisHost
      fresh := Function.const Nat (← freshGenerator)
      transport := none }
    arguments
  IO.print run.stdout
  IO.eprint run.stderr
  match run.ending with
  | .exit code => return code.toNat.toUInt32
  | .brokenDown breakdown =>
    IO.eprintln breakdown.message
    return 1
