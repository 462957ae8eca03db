import DiceNotation.CommandLine.Arguments

/-!
# Requests

A command line asks for one of three things: to roll a notation, to read one, or to run the
service. The notation is given in words that are joined by blanks. What no form could use of the
arguments, from the whole program down to the innermost command, is refused together.
-/

set_option autoImplicit false

namespace DiceNotation.CommandLine

/-- What a command line asks for. -/
inductive Request
  | roll (options : Options) (text : String)
  | parse (options : Options) (text : String)
  | serve (options : Options)
deriving DecidableEq

/-- A request, unless there are strays. -/
def Request.without (strays : List String) (request : Request) : Except Stop Request :=
  if strays.isEmpty then .ok request
  else .error (.misuse .top ("unrecognized arguments: " ++ " ".intercalate strays))

/-- The notation that words make. -/
def notationText (arguments : Arguments) : String :=
  " ".intercalate (arguments.words.getD [])

/-- Reads the arguments of the commands around the service. -/
def Request.ofServiceArguments (keepsDashes : Bool) (strays : List String)
    (arguments : List String) : Except Stop Request := do
  let outer ← Form.mcp.read keepsDashes arguments
  let inner ← Form.serve.read keepsDashes ((outer.words.getD []).drop 1)
  Request.without (strays ++ outer.strays ++ inner.strays) (.serve inner.options)

/-- Reads the arguments of the program. The host may keep or drop two dashes that are the value of
an option. -/
def Request.ofArguments (keepsDashes : Bool) (arguments : List String) : Except Stop Request := do
  let outer ← Form.top.read keepsDashes arguments
  match outer.words.getD [] with
  | "roll" :: rest =>
    let inner ← Form.roll.read keepsDashes rest
    Request.without (outer.strays ++ inner.strays) (.roll inner.options (notationText inner))
  | "parse" :: rest =>
    let inner ← Form.parse.read keepsDashes rest
    Request.without (outer.strays ++ inner.strays) (.parse inner.options (notationText inner))
  | words => Request.ofServiceArguments keepsDashes outer.strays (words.drop 1)

end DiceNotation.CommandLine
