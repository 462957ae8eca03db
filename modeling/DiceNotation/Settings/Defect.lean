import DiceNotation.Text.Numeral

/-!
# What can be wrong with the settings

The settings live in a file `droll.toml`. A defect says why no settings could be taken from it: the
file was not found, could not be read as text or as TOML, or holds something that the settings do
not allow. Paths are kept as they were given, because the message shows them so.
-/

set_option autoImplicit false

namespace DiceNotation.Settings

/-- The types that a setting may be required to have. -/
inductive Shape
  | integer
  | boolean
  | string
deriving DecidableEq

/-- A reason why no settings were read. -/
inductive Defect
  | notFound
  | missing (path : String)
  | unreadable (path : String)
  | notUtf8 (path : String)
  | notToml (path detail : String)
  | noVersion
  | unsupportedVersion (version : Int)
  | notTable (name : String)
  | wrongShape (name : String) (shape : Shape)
  | maxDiceTooSmall
  | maxDepthTooSmall
  | maxDepthTooLarge (greatest : Nat)
  | unknownFormat
deriving DecidableEq

/-- How a type is named in a message. -/
def Shape.display : Shape → String
  | integer => "an integer"
  | boolean => "a boolean"
  | string => "a string"

/-- The message of a defect. -/
def Defect.message : Defect → String
  | notFound => "Could not find droll.toml by walking upward from start path."
  | missing path => s!"Missing droll.toml at: {path}"
  | unreadable path => s!"Failed reading config file: {path}"
  | notUtf8 path => s!"Config is not valid UTF-8: {path}"
  | notToml path detail => s!"Invalid TOML in {path}: {detail}"
  | noVersion => "Missing required `version = 1` in droll.toml."
  | unsupportedVersion version => s!"Unsupported config version: {version} (expected 1)."
  | notTable name => s!"Expected [{name}] to be a table."
  | wrongShape name shape => s!"Expected {name} to be {shape.display}."
  | maxDiceTooSmall => "Invalid config: roll.max_dice must be >= 1."
  | maxDepthTooSmall => "Invalid config: parser.max_depth must be >= 1."
  | maxDepthTooLarge greatest =>
    s!"Invalid config: parser.max_depth must be <= {greatest} " ++
      "(bounded by the interpreter recursion limit)."
  | unknownFormat => "Invalid config: output.format must be one of text, json."

/-- The numbers that the message of a defect tells. -/
def Defect.numbers : Defect → List Int
  | unsupportedVersion version => [version]
  | maxDepthTooLarge greatest => [greatest]
  | _ => []

/-- Whether the message of a defect can be written. -/
def Defect.isWritable (defect : Defect) : Bool :=
  defect.numbers.all Text.isWritable

end DiceNotation.Settings
