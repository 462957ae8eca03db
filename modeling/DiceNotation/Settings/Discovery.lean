import DiceNotation.Breakdown
import DiceNotation.Host
import DiceNotation.Settings

/-!
# Finding and reading the settings

The settings of a place are those of the nearest directory, upwards from the place, that holds a
settings file. A start that is a file, or that the system refuses to examine, stands for its
parent. A directory with the name of a settings file does not count.

A settings file is read as UTF-8 and then by the host as TOML. The outcome is the settings or a
defect, unless the reading breaks down.
-/

set_option autoImplicit false

namespace DiceNotation.Settings

/-- Looks for a settings file in a place and in the places above it; the names of the place come in
reverse. -/
def climb (world : World) : List String → Except Refusal (Option (List String))
  | [] =>
    (world.isFile (.absolute [fileName])).map fun found => if found then some [] else none
  | name :: above =>
    let place := (name :: above).reverse
    match world.isFile (.absolute (place ++ [fileName])) with
    | .error refusal => .error refusal
    | .ok true => .ok (some place)
    | .ok false => climb world above

/-- The path that a search starts from. -/
def searchStart (world : World) (start : Path) : Path :=
  match world.isFile start with
  | .ok false => start
  | _ => start.parent

/-- The nearest directory with a settings file. -/
def findRoot (world : World) (start : Path) : Except Refusal (Option (List String)) :=
  match world.place (searchStart world start) with
  | .error refusal => .error refusal
  | .ok place => climb world place.reverse

/-- The settings of a table, or a defect that can be told. -/
def ofData (host : Host) (data : Toml.Table) : Except Breakdown (Except Defect Settings) :=
  match ofTable host.greatestDepth data with
  | .ok settings => .ok (.ok settings)
  | .error defect => if defect.isWritable then .ok (.error defect) else .error .unwritable

/-- The settings of some bytes. -/
def ofBytes (host : Host) (path : Path) (content : ByteArray) :
    Except Breakdown (Except Defect Settings) :=
  match String.fromUTF8? content with
  | none => .ok (.error (.notUtf8 path.display))
  | some text =>
    match host.readToml text with
    | .error (.malformed detail) => .ok (.error (.notToml path.display detail))
    | .error (.numeralTooLong digits) => .error (.numeralTooLong digits)
    | .ok data => ofData host data

/-- The settings of a file. A path with the null character in it is refused; all else that keeps
the file from being read is a defect. -/
def ofFile (host : Host) (world : World) (path : Path) :
    Except Breakdown (Except Defect Settings) :=
  match world.find path with
  | .error .nullCharacter => .error (.refused ⟨path, .nullCharacter⟩)
  | .error .missing => .ok (.error (.missing path.display))
  | .error _ => .ok (.error (.unreadable path.display))
  | .ok .directory => .ok (.error (.unreadable path.display))
  | .ok (.file none) => .ok (.error (.unreadable path.display))
  | .ok (.file (some content)) => ofBytes host path content

/-- The settings of the working directory: those of the nearest settings file, or none. -/
def ofWorkingDirectory (host : Host) (world : World) :
    Except Breakdown (Option (Except Defect Settings)) :=
  match findRoot world (.absolute world.workingDirectory) with
  | .error refusal => .error (.refused refusal)
  | .ok none => .ok none
  | .ok (some root) => (ofFile host world (.absolute (root ++ [fileName]))).map some

/-- The settings of a file, of a directory, or of the working directory, whichever is given
first. -/
def load (host : Host) (world : World) (root config : Option Path) :
    Except Breakdown (Except Defect Settings) :=
  match config, root with
  | some path, _ => ofFile host world path
  | none, some root => ofFile host world (root.child fileName)
  | none, none =>
    (ofWorkingDirectory host world).map fun settings? => settings?.getD (.error .notFound)

end DiceNotation.Settings
