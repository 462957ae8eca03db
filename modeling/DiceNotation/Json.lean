import DiceNotation.Text.Quoted

/-!
# JSON

Answers are written as JSON: on one line, with a blank after every comma and colon, or over several
lines with two blanks of indentation per level, where an empty list stays `[]`. Members keep their
order. Texts are written in ASCII: the quote, the backslash and the controls are escaped, and a
character beyond ASCII is written by its UTF-16 units.
-/

set_option autoImplicit false

namespace DiceNotation

/-- A JSON value; its numbers are whole. -/
inductive Json
  | null
  | boolean (value : Bool)
  | integer (value : Int)
  | text (value : String)
  | list (items : List Json)
  | object (members : List (String × Json))

namespace Json

/-- A UTF-16 unit as an escape. -/
def escapeUnit (unit : Nat) : String :=
  "\\u" ++ Text.hexPadded 4 unit

/-- How a character is written in a text. -/
def escapeChar (c : Char) : String :=
  let code := c.toNat
  if c == '"' then "\\\""
  else if c == '\\' then "\\\\"
  else if c == '\n' then "\\n"
  else if c == '\r' then "\\r"
  else if c == '\t' then "\\t"
  else if code == 0x8 then "\\b"
  else if code == 0xC then "\\f"
  else if 0x20 ≤ code && code < 0x7F then c.toString
  else if code ≤ 0xFFFF then escapeUnit code
  else
    let offset := code - 0x10000
    escapeUnit (0xD800 + offset / 0x400) ++ escapeUnit (0xDC00 + offset % 0x400)

/-- A text between double quotes. -/
def quote (text : String) : String :=
  text.foldl (fun out c => out ++ escapeChar c) "\"" ++ "\""

mutual

/-- Writes a value on one line behind `out`. -/
def writeLine (out : String) : Json → String
  | null => out ++ "null"
  | boolean true => out ++ "true"
  | boolean false => out ++ "false"
  | integer value => out ++ toString value
  | text value => out ++ quote value
  | list items => writeItems (out.push '[') "" items ++ "]"
  | object members => writeMembers (out.push (Char.ofNat 0x7B)) "" members ++ "\x7d"

/-- Writes the items of a list, the first after `separator`. -/
def writeItems (out separator : String) : List Json → String
  | [] => out
  | item :: rest => writeItems (writeLine (out ++ separator) item) ", " rest

/-- Writes the members of an object, the first after `separator`. -/
def writeMembers (out separator : String) : List (String × Json) → String
  | [] => out
  | (name, value) :: rest =>
    writeMembers (writeLine (out ++ separator ++ quote name ++ ": ") value) ", " rest

end

/-- A value on one line. -/
def compact (value : Json) : String :=
  writeLine "" value

/-- A line break and the indentation of a level. -/
def lineBreak (level : Nat) : String :=
  String.ofList ('\n' :: List.replicate (2 * level) ' ')

mutual

/-- Writes a value over several lines behind `out`. -/
def writeLines (level : Nat) (out : String) : Json → String
  | null => out ++ "null"
  | boolean true => out ++ "true"
  | boolean false => out ++ "false"
  | integer value => out ++ toString value
  | text value => out ++ quote value
  | list [] => out ++ "[]"
  | list items => indentItems (level + 1) (out.push '[') "" items ++ lineBreak level ++ "]"
  | object [] => out ++ "\x7b\x7d"
  | object members =>
    indentMembers (level + 1) (out.push (Char.ofNat 0x7B)) "" members ++ lineBreak level ++
      "\x7d"

/-- Writes the items of a list on lines of their own, the first after `separator`. -/
def indentItems (level : Nat) (out separator : String) : List Json → String
  | [] => out
  | item :: rest =>
    indentItems level (writeLines level (out ++ separator ++ lineBreak level) item) "," rest

/-- Writes the members of an object on lines of their own, the first after `separator`. -/
def indentMembers (level : Nat) (out separator : String) : List (String × Json) → String
  | [] => out
  | (name, value) :: rest =>
    indentMembers level
      (writeLines level (out ++ separator ++ lineBreak level ++ quote name ++ ": ") value) ","
      rest

end

/-- A value over several lines. -/
def indented (value : Json) : String :=
  writeLines 0 "" value

end Json

end DiceNotation
