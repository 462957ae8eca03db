import DiceNotation.DepthLimit
import DiceNotation.Settings.Defect
import DiceNotation.Toml.Value

/-!
# Settings

The settings of the program: the seed and the limits of a roll, the form of the output, and whether
the service may run. They are taken from a TOML table whose version must be one. Each setting has a
place in one of four tables and keeps its standard value where it is absent; whatever else the
table holds is ignored.

The first defect is told. The version is checked first, then that the four tables are tables, then
the shape of every setting in order, and last the ranges.
-/

set_option autoImplicit false

namespace DiceNotation

/-- The forms of the output. -/
inductive OutputFormat
  | text
  | json
deriving DecidableEq

/-- The settings; as given here, the standard ones. -/
structure Settings where
  seed : Option Int := none
  maxDice : Option Int := none
  maxDepth : DepthLimit := .standard
  format : OutputFormat := .text
  showRolls : Bool := false
  showTree : Bool := false
  serviceEnabled : Bool := true
deriving DecidableEq

namespace Settings

/-- The name of a file that holds settings. -/
def fileName : String := "droll.toml"

/-- The settings in force where no file gives any. -/
def standard : Settings := {}

/-- The value of a whole number. A truth value is none. -/
def asInteger (name : String) : Toml.Value → Except Defect Int
  | .integer value => .ok value
  | _ => .error (.wrongShape name .integer)

/-- The value of a truth value. -/
def asBoolean (name : String) : Toml.Value → Except Defect Bool
  | .boolean value => .ok value
  | _ => .error (.wrongShape name .boolean)

/-- The value of a string. -/
def asString (name : String) : Toml.Value → Except Defect String
  | .string text => .ok text
  | _ => .error (.wrongShape name .string)

/-- A table of the settings; an absent one is empty. -/
def tableOf (data : Toml.Table) (name : String) : Except Defect Toml.Table :=
  match data.get? name with
  | none => .ok []
  | some (.table entries) => .ok entries
  | some _ => .error (.notTable name)

/-- A setting, if it is present. The name of its table goes before its own in a message. -/
def setting? {α : Type} (read : String → Toml.Value → Except Defect α) (table : String)
    (entries : Toml.Table) (name : String) : Except Defect (Option α) :=
  match entries.get? name with
  | none => .ok none
  | some value => (read (table ++ "." ++ name) value).map some

/-- The version must be one. -/
def checkVersion (data : Toml.Table) : Except Defect Unit :=
  match data.get? "version" with
  | none => .error .noVersion
  | some value =>
    match asInteger "version" value with
    | .error defect => .error defect
    | .ok version => if version = 1 then .ok () else .error (.unsupportedVersion version)

/-- A limit of dice is at least one. -/
def checkMaxDice (maxDice : Option Int) : Except Defect Unit :=
  if maxDice.any (· < 1) then .error .maxDiceTooSmall else .ok ()

/-- The nesting limit of a setting, which may not be above the greatest. -/
def toDepthLimit (greatest : Nat) : Option Int → Except Defect DepthLimit
  | none => .ok .standard
  | some levels =>
    match DepthLimit.ofInt? greatest levels with
    | some limit => .ok limit
    | none => if levels < 1 then .error .maxDepthTooSmall else .error (.maxDepthTooLarge greatest)

/-- The form of the output of a setting. -/
def toFormat : Option String → Except Defect OutputFormat
  | none => .ok .text
  | some "text" => .ok .text
  | some "json" => .ok .json
  | some _ => .error .unknownFormat

/-- The settings of a table, where no nesting limit is above the greatest. -/
def ofTable (greatestDepth : Nat) (data : Toml.Table) : Except Defect Settings := do
  checkVersion data
  let roll ← tableOf data "roll"
  let parser ← tableOf data "parser"
  let output ← tableOf data "output"
  let mcp ← tableOf data "mcp"
  let seed ← setting? asInteger "roll" roll "seed"
  let maxDice ← setting? asInteger "roll" roll "max_dice"
  let maxDepth ← setting? asInteger "parser" parser "max_depth"
  let format ← setting? asString "output" output "format"
  let showRolls ← setting? asBoolean "output" output "show_rolls"
  let showTree ← setting? asBoolean "output" output "show_tree"
  let enabled ← setting? asBoolean "mcp" mcp "enabled"
  checkMaxDice maxDice
  let maxDepth ← toDepthLimit greatestDepth maxDepth
  let format ← toFormat format
  return {
    seed, maxDice, maxDepth, format
    showRolls := showRolls.getD false
    showTree := showTree.getD false
    serviceEnabled := enabled.getD true }

end Settings

end DiceNotation
