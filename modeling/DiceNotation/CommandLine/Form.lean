import DiceNotation.Text.Numeral
import DiceNotation.Text.Quoted

/-!
# Forms of a command line

A form says what the arguments of a command may be: which options it knows, and what its other
words are for. An option is written in full or, as far as it is unambiguous, abbreviated; some
options take a value.
-/

set_option autoImplicit false

namespace DiceNotation.CommandLine

/-- The options of all commands. -/
inductive Flag
  | help
  | version
  | root
  | config
  | verbose
  | json
  | seed
  | maxDice
  | rolls
  | tree
deriving DecidableEq

namespace Flag

/-- The ways to write an option in full. -/
def spellings : Flag → List String
  | help => ["-h", "--help"]
  | version => ["--version"]
  | root => ["--root"]
  | config => ["--config"]
  | verbose => ["-v", "--verbose"]
  | json => ["--json"]
  | seed => ["--seed"]
  | maxDice => ["--max-dice"]
  | rolls => ["--rolls"]
  | tree => ["--tree"]

/-- The value of an option as a synopsis names it, if the option takes one. -/
def placeholder? : Flag → Option String
  | root => some "ROOT"
  | config => some "CONFIG"
  | seed => some "SEED"
  | maxDice => some "MAX_DICE"
  | _ => none

/-- Whether an option takes a value. -/
def takesValue (flag : Flag) : Bool :=
  flag.placeholder?.isSome

/-- How messages name an option. -/
def label (flag : Flag) : String :=
  "/".intercalate flag.spellings

/-- An option in a synopsis. -/
def synopsis (flag : Flag) : String :=
  let spelling := flag.spellings.headD ""
  match flag.placeholder? with
  | some placeholder => s!"[{spelling} {placeholder}]"
  | none => s!"[{spelling}]"

end Flag

/-- What the words of a command that are no options are for. -/
inductive Operand
  /-- One of some commands, with all that follows for its arguments. -/
  | command (label : String) (choices : List String)
  /-- One or more words. -/
  | words (label : String)
deriving DecidableEq

namespace Operand

/-- How messages name an operand. -/
def label : Operand → String
  | command label _ => label
  | words label => label

end Operand

/-- What the arguments of a command may be. -/
structure Form where
  program : String
  flags : List Flag
  operand : Option Operand

namespace Form

/-- The whole program. -/
def top : Form where
  program := "droll"
  flags := [.help, .version]
  operand := some (.command "command" ["roll", "parse", "mcp"])

/-- The command that rolls a notation. -/
def roll : Form where
  program := "droll roll"
  flags := [.help, .root, .config, .verbose, .json, .seed, .maxDice, .rolls, .tree]
  operand := some (.words "notation")

/-- The command that reads a notation. -/
def parse : Form where
  program := "droll parse"
  flags := [.help, .root, .config, .verbose, .json]
  operand := some (.words "notation")

/-- The commands around the service. -/
def mcp : Form where
  program := "droll mcp"
  flags := [.help]
  operand := some (.command "mcp_command" ["serve"])

/-- The command that runs the service. -/
def serve : Form where
  program := "droll mcp serve"
  flags := [.help, .root, .config, .verbose]
  operand := none

/-- The options of a form with their spellings, in order. -/
def spelled (form : Form) : List (Flag × String) :=
  form.flags.flatMap fun flag => flag.spellings.map fun spelling => (flag, spelling)

/-- The option that a form knows by a spelling. -/
def flagOf? (form : Form) (spelling : String) : Option Flag :=
  (form.spelled.find? fun entry => entry.2 == spelling).map Prod.fst

/-- How the arguments of a form are written. -/
def synopsis (form : Form) : String :=
  let operand := match form.operand with
    | some (.command _ choices) => [",".intercalate choices, "..."]
    | some (.words label) => [s!"{label} [{label} ...]"]
    | none => []
  " ".intercalate ("usage:" :: form.program :: form.flags.map Flag.synopsis ++ operand)

end Form

/-- Why the reading of a command line stops before a command is run. -/
inductive Stop
  /-- The synopsis of a form is asked for. -/
  | help (form : Form)
  /-- The version is asked for. -/
  | version
  /-- The arguments do not fit a form. -/
  | misuse (form : Form) (message : String)

end DiceNotation.CommandLine
