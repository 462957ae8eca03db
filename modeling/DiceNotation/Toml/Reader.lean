import DiceNotation.Toml.Document
import DiceNotation.Toml.Scalar

/-!
# Reading a TOML document

A document is a sequence of lines, each of which is empty, assigns a value to a key, or is a
header, and may end with a comment. Line ends are line feeds, alone or after a carriage return.

A value that holds other values is read through them, so the reading of values, items and members
recurs on a bound that every step lowers. A step that keeps the bound's worth of characters reads
at least one of them or hands on to a step that does, so twice the length of the text is enough.
-/

set_option autoImplicit false

namespace DiceNotation.Toml

/-- Skips the blanks of a line. -/
def skipBlanks (chars : List Char) : List Char :=
  chars.dropWhile isBlank

/-- Skips a comment, up to the end of its line. -/
def skipComment (chars : List Char) : Except Problem (List Char) :=
  match chars with
  | '#' :: rest =>
    let comment := rest.takeWhile (· != '\n')
    if comment.any (isForbidden false) then fail .control chars
    else .ok (rest.dropWhile (· != '\n'))
  | _ => .ok chars

/-- Skips blanks, line feeds and comments, at most `bound` times one after the other. -/
def skipGap (bound : Nat) (chars : List Char) : Except Problem (List Char) :=
  match bound with
  | 0 => .ok chars
  | bound + 1 => do
    let rest ← skipComment (chars.dropWhile isBlankOrBreak)
    if rest.length < chars.length then skipGap bound rest else return rest

/-! ## Keys -/

/-- A character of a key without quotes. -/
def isBare (c : Char) : Bool :=
  ('a' ≤ c && c ≤ 'z') || ('A' ≤ c && c ≤ 'Z') || ('0' ≤ c && c ≤ '9') || c == '-' || c == '_'

/-- Reads one part of a key. -/
def readKeyPart (chars : List Char) : Except Problem (String × List Char) :=
  match chars with
  | '"' :: rest => readBasic false .plain [] rest
  | '\'' :: rest => readLiteral [] rest
  | c :: _ =>
    if isBare c then .ok (String.ofList (chars.takeWhile isBare), chars.dropWhile isBare)
    else fail .keyStart chars
  | [] => fail .keyStart []

/-- Reads the parts of a key after the first. -/
def readKeyRest (bound : Nat) (chars : List Char) : Except Problem (List String × List Char) :=
  match bound, chars with
  | bound + 1, '.' :: rest => do
    let (part, rest) ← readKeyPart (skipBlanks rest)
    let (more, rest) ← readKeyRest bound (skipBlanks rest)
    return (part :: more, rest)
  | _, chars => .ok ([], chars)

/-- A key: its first part and the others. -/
structure Key where
  first : String
  more : List String

/-- Reads a key and the blanks after it. -/
def readKey (chars : List Char) : Except Problem (Key × List Char) := do
  let (first, rest) ← readKeyPart chars
  let (more, rest) ← readKeyRest chars.length (skipBlanks rest)
  return (⟨first, more⟩, rest)

/-- Reads a key, the sign of equality, and the blanks around it. -/
def readKeyEquals (chars : List Char) : Except Problem (Key × List Char) := do
  let (key, rest) ← readKey chars
  match rest with
  | '=' :: rest => return (key, skipBlanks rest)
  | rest => fail .equals rest

/-! ## Values -/

/-- Reads a value that is no string, array or inline table. -/
def readPlain (chars : List Char) : Except Problem (Value × List Char) :=
  match chars with
  | 't' :: 'r' :: 'u' :: 'e' :: rest => .ok (.boolean true, rest)
  | 'f' :: 'a' :: 'l' :: 's' :: 'e' :: rest => .ok (.boolean false, rest)
  | _ =>
    match readDate? chars <|> (readTime? chars <|> readPrefixed? chars).map .ok <|>
        readDecimal? chars <|> (readNamed? chars).map .ok with
    | some outcome => outcome
    | none => fail .value chars

/-- Turns the cause of a refused statement into a problem. -/
def atPlace {α : Type} (rest : List Char) : Except Cause α → Except Problem α
  | .ok value => .ok value
  | .error cause => fail cause rest

mutual

/-- Reads a value. -/
def readValue (bound : Nat) (chars : List Char) : Except Problem (Value × List Char) :=
  match bound with
  | 0 => fail .value chars
  | bound + 1 =>
    match readString? chars with
    | some outcome => outcome.map fun (text, rest) => (.string text, rest)
    | none =>
      match chars with
      | '[' :: rest => do
        let rest ← skipGap rest.length rest
        match rest with
        | ']' :: rest => return (.array [], rest)
        | rest => readItems bound [] rest
      | c :: rest =>
        if c == Char.ofNat 0x7B then
          match skipBlanks rest with
          | [] => fail .keyStart []
          | c :: after =>
            if c == Char.ofNat 0x7D then .ok (.table [], after)
            else readMembers bound [] (c :: after)
        else readPlain chars
      | [] => fail .value []

/-- Reads the items of an array from the next one on; `read` holds those before it, the last
first. -/
def readItems (bound : Nat) (read : List Value) (chars : List Char) :
    Except Problem (Value × List Char) :=
  match bound with
  | 0 => fail .value chars
  | bound + 1 => do
    let (item, rest) ← readValue bound chars
    let rest ← skipGap rest.length rest
    match rest with
    | ']' :: rest => return (.array (item :: read).reverse, rest)
    | ',' :: rest =>
      let rest ← skipGap rest.length rest
      match rest with
      | ']' :: rest => return (.array (item :: read).reverse, rest)
      | rest => readItems bound (item :: read) rest
    | rest => fail .arrayEnd rest

/-- Reads the members of an inline table from the next one on, after the given ones. -/
def readMembers (bound : Nat) (entries : Entries) (chars : List Char) :
    Except Problem (Value × List Char) :=
  match bound with
  | 0 => fail .value chars
  | bound + 1 => do
    let (key, rest) ← readKeyEquals chars
    let (value, rest) ← readValue bound rest
    let entries ← atPlace rest (entries.assign 0 value key.first key.more)
    match skipBlanks rest with
    | ',' :: rest => readMembers bound entries (skipBlanks rest)
    | c :: rest =>
      if c == Char.ofNat 0x7D then return (.table (entriesToTable entries), rest)
      else fail .inlineTableEnd (c :: rest)
    | [] => fail .inlineTableEnd []

end

/-! ## Documents -/

/-- Reads a statement that starts with the given characters, none of them blank. -/
def readStatement (document : Document) (chars : List Char) :
    Except Problem (Document × List Char) :=
  match chars with
  | '[' :: '[' :: rest => do
    let (key, rest) ← readKey (skipBlanks rest)
    let document ← atPlace rest (document.extend key.first key.more)
    match rest with
    | ']' :: ']' :: rest => return (document, rest)
    | rest => fail .arrayTableEnd rest
  | '[' :: rest => do
    let (key, rest) ← readKey (skipBlanks rest)
    let document ← atPlace rest (document.declare key.first key.more)
    match rest with
    | ']' :: rest => return (document, rest)
    | rest => fail .tableEnd rest
  | chars => do
    let (key, rest) ← readKeyEquals chars
    let (value, rest) ← readValue (2 * rest.length + 2) rest
    let document ← atPlace rest (document.assign key.first key.more value)
    return (document, rest)

/-- Whether a statement can start with a character. -/
def startsStatement (c : Char) : Bool :=
  isBare c || c == '"' || c == '\'' || c == '['

/-- Reads the lines of a document, at most `bound` of them. -/
def readLines (bound : Nat) (document : Document) (chars : List Char) :
    Except Problem Document :=
  match bound with
  | 0 => .ok document
  | bound + 1 => do
    let chars := skipBlanks chars
    let (document, rest) ← match chars with
      | c :: _ =>
        if startsStatement c then readStatement document chars
        else if c == '\n' || c == '#' then .ok (document, chars)
        else fail .statement chars
      | [] => .ok (document, [])
    match ← skipComment (skipBlanks rest) with
    | [] => return document
    | '\n' :: rest => readLines bound document rest
    | rest => fail .lineEnd rest

/-- Line feeds in place of the pairs of carriage return and line feed. -/
def unifyBreaks : List Char → List Char
  | '\r' :: '\n' :: rest => '\n' :: unifyBreaks rest
  | c :: rest => c :: unifyBreaks rest
  | [] => []

/-- Reads a text as a document. -/
def parse (text : String) : Except Failure Table :=
  let chars := unifyBreaks text.toList
  match readLines (chars.length + 1) {} chars with
  | .ok document => .ok document.toTable
  | .error problem => .error (problem.failure chars)

end DiceNotation.Toml
