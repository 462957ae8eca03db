import DiceNotation.Text.Numeral
import DiceNotation.Toml.Problem
import DiceNotation.Toml.Value

/-!
# TOML scalars

The reading of strings, numbers, dates and times. A reading takes the characters that are left and
gives the value with the characters after it.

Controls other than the tab are refused in every string, except that a multi-line string holds
line feeds. In a string between double quotes the backslash escapes; at the end of a line of a
multi-line string it joins the lines, swallowing the blanks and line feeds that follow.
-/

set_option autoImplicit false

namespace DiceNotation.Toml

/-- The controls, which only some places admit. -/
def isControl (c : Char) : Bool :=
  c.toNat < 0x20 || c.toNat == 0x7F

/-- The blanks within a line. -/
def isBlank (c : Char) : Bool :=
  c == ' ' || c == '\t'

/-- The blanks and the line feed. -/
def isBlankOrBreak (c : Char) : Bool :=
  isBlank c || c == '\n'

/-- A control that no string and no comment may hold. -/
def isForbidden (multiline : Bool) (c : Char) : Bool :=
  isControl c && c != '\t' && !(multiline && c == '\n')

/-- The value of a hexadecimal digit. -/
def hexValue? (c : Char) : Option Nat :=
  if '0' ≤ c && c ≤ '9' then some (c.toNat - '0'.toNat)
  else if 'a' ≤ c && c ≤ 'f' then some (c.toNat - 'a'.toNat + 10)
  else if 'A' ≤ c && c ≤ 'F' then some (c.toNat - 'A'.toNat + 10)
  else none

/-! ## Strings -/

/-- The character that a one-letter escape stands for. -/
def escaped? : Char → Option Char
  | 'b' => some (Char.ofNat 0x8)
  | 't' => some '\t'
  | 'n' => some '\n'
  | 'f' => some (Char.ofNat 0xC)
  | 'r' => some '\r'
  | '"' => some '"'
  | '\\' => some '\\'
  | _ => none

/-- What the reading of a string between double quotes is in the middle of. -/
inductive StringMode
  | plain
  /-- A backslash has been read. -/
  | escape
  /-- So many hexadecimal digits of an escape are missing. -/
  | hex (missing : Nat) (code : Nat)
  /-- A backslash and blanks have been read; a line feed must come. -/
  | joining
  /-- A backslash and a line feed have been read; blanks and line feeds are swallowed. -/
  | joined
deriving DecidableEq

/-- Reads the rest of a string between double quotes. -/
def readBasic (multiline : Bool) (mode : StringMode) (out : List Char) :
    List Char → Except Problem (String × List Char)
  | [] => fail .unterminated []
  | c :: rest =>
    match mode with
    | .escape =>
      if multiline && c == '\n' then readBasic multiline .joined out rest
      else if multiline && isBlank c then readBasic multiline .joining out rest
      else if c == 'u' then readBasic multiline (.hex 4 0) out rest
      else if c == 'U' then readBasic multiline (.hex 8 0) out rest
      else
        match escaped? c with
        | some meant => readBasic multiline .plain (meant :: out) rest
        | none => fail .escape (c :: rest)
    | .hex missing code =>
      match hexValue? c with
      | none => fail .escape (c :: rest)
      | some digit =>
        let code := code * 16 + digit
        if missing ≤ 1 then
          if code.isValidChar then readBasic multiline .plain (Char.ofNat code :: out) rest
          else fail .scalarValue rest
        else readBasic multiline (.hex (missing - 1) code) out rest
    | .joining =>
      if isBlank c then readBasic multiline .joining out rest
      else if c == '\n' then readBasic multiline .joined out rest
      else fail .escape (c :: rest)
    | mode =>
      if mode == .joined && isBlankOrBreak c then readBasic multiline .joined out rest
      else if c == '"' then
        if multiline then
          match rest with
          | '"' :: '"' :: after => .ok (String.ofList out.reverse, after)
          | _ => readBasic multiline .plain ('"' :: out) rest
        else .ok (String.ofList out.reverse, rest)
      else if c == '\\' then readBasic multiline .escape out rest
      else if isForbidden multiline c then fail .control (c :: rest)
      else readBasic multiline .plain (c :: out) rest

/-- Reads the rest of a string between single quotes on one line. -/
def readLiteral (out : List Char) : List Char → Except Problem (String × List Char)
  | [] => fail .unterminated []
  | c :: rest =>
    if c == '\'' then .ok (String.ofList out.reverse, rest)
    else if isForbidden false c then fail .control (c :: rest)
    else readLiteral (c :: out) rest

/-- Reads the rest of a multi-line string between single quotes. -/
def readLiteralLines (out : List Char) : List Char → Except Problem (String × List Char)
  | [] => fail .unterminated []
  | '\'' :: '\'' :: '\'' :: rest => .ok (String.ofList out.reverse, rest)
  | c :: rest =>
    if isForbidden true c then fail .control (c :: rest)
    else readLiteralLines (c :: out) rest

/-- The up to two quotes that stand before the closing ones of a multi-line string belong to it. -/
def readExtraQuotes (quote : Char) (text : String) (rest : List Char) : String × List Char :=
  match rest with
  | first :: second :: after =>
    if first == quote then
      if second == quote then ((text.push quote).push quote, after)
      else (text.push quote, second :: after)
    else (text, rest)
  | [first] => if first == quote then (text.push quote, []) else (text, rest)
  | [] => (text, [])

/-- The line feed right after the opening quotes of a multi-line string is not part of it. -/
def dropFirstBreak : List Char → List Char
  | '\n' :: rest => rest
  | chars => chars

/-- Reads a string of any of the four forms. -/
def readString? (chars : List Char) : Option (Except Problem (String × List Char)) :=
  match chars with
  | '"' :: '"' :: '"' :: rest =>
    some ((readBasic true .plain [] (dropFirstBreak rest)).map
      fun (text, rest) => readExtraQuotes '"' text rest)
  | '"' :: rest => some (readBasic false .plain [] rest)
  | '\'' :: '\'' :: '\'' :: rest =>
    some ((readLiteralLines [] (dropFirstBreak rest)).map
      fun (text, rest) => readExtraQuotes '\'' text rest)
  | '\'' :: rest => some (readLiteral [] rest)
  | _ => none

/-! ## Numbers -/

/-- Splits off a run of digits, in which single underscores may stand between two digits. The
underscores are dropped. The first character must be a digit. -/
def splitDigits (isDigit : Char → Bool) : List Char → List Char × List Char
  | '_' :: c :: rest =>
    if isDigit c then
      let (digits, rest) := splitDigits isDigit rest
      (c :: digits, rest)
    else ([], '_' :: c :: rest)
  | c :: rest =>
    if isDigit c then
      let (digits, rest) := splitDigits isDigit rest
      (c :: digits, rest)
    else ([], c :: rest)
  | [] => ([], [])

/-- Splits off a run of digits that has at least one. -/
def splitDigits? (isDigit : Char → Bool) (chars : List Char) :
    Option (List Char × List Char) :=
  match chars with
  | c :: _ => if isDigit c then some (splitDigits isDigit chars) else none
  | [] => none

/-- The number that digits of a base stand for. -/
def valueIn (base : Nat) (digits : List Char) : Nat :=
  digits.foldl (fun value digit => value * base + (hexValue? digit).getD 0) 0

/-- A digit of a base. -/
def isDigitIn (base : Nat) (c : Char) : Bool :=
  (hexValue? c).any (· < base)

/-- Reads a number in base sixteen, eight or two. -/
def readPrefixed? : List Char → Option (Value × List Char)
  | '0' :: mark :: rest => do
    let base ← match mark with
      | 'x' => some 16
      | 'o' => some 8
      | 'b' => some 2
      | _ => none
    let (digits, rest) ← splitDigits? (isDigitIn base) rest
    return (.integer (valueIn base digits), rest)
  | _ => none

/-- The fraction after a number: its text, if there is one, and the characters after it. -/
def splitFraction (chars : List Char) : List Char × List Char :=
  match chars with
  | '.' :: rest =>
    match splitDigits? (isDigitIn 10) rest with
    | some (digits, rest) => ('.' :: digits, rest)
    | none => ([], chars)
  | _ => ([], chars)

/-- Splits off a sign. -/
def splitSign : List Char → List Char × List Char
  | '+' :: rest => (['+'], rest)
  | '-' :: rest => (['-'], rest)
  | chars => ([], chars)

/-- The exponent after a number: its text, if there is one, and the characters after it. -/
def splitExponent (chars : List Char) : List Char × List Char :=
  match chars with
  | mark :: rest =>
    if mark == 'e' || mark == 'E' then
      let (sign, rest) := splitSign rest
      match splitDigits? (isDigitIn 10) rest with
      | some (digits, rest) => (mark :: sign ++ digits, rest)
      | none => ([], chars)
    else ([], chars)
  | [] => ([], [])

/-- The whole part of a decimal number: a lone zero, or digits that do not start with one. -/
def splitWhole? (chars : List Char) : Option (List Char × List Char) :=
  match chars with
  | '0' :: rest => some (['0'], rest)
  | _ => splitDigits? (isDigitIn 10) chars

/-- Reads a decimal number, whole or not. A whole one must not have more digits than a numeral may
have. -/
def readDecimal? (chars : List Char) : Option (Except Problem (Value × List Char)) := do
  let (sign, rest) := splitSign chars
  let (whole, rest) ← splitWhole? rest
  let (fraction, rest) := splitFraction rest
  let (exponent, rest) := splitExponent rest
  if !(fraction.isEmpty && exponent.isEmpty) then
    return .ok (.float (String.ofList (sign ++ whole ++ fraction ++ exponent)), rest)
  else if Text.maxDigits < whole.length then return fail (.numeralTooLong whole.length) chars
  else
    let value := (valueIn 10 whole : Int)
    return .ok (.integer (if sign == ['-'] then -value else value), rest)

/-- Reads one of the two floating-point numbers that have names, with or without a sign. -/
def readNamed? (chars : List Char) : Option (Value × List Char) :=
  let (sign, rest) := splitSign chars
  match rest with
  | 'i' :: 'n' :: 'f' :: rest => some (.float (String.ofList (sign ++ "inf".toList)), rest)
  | 'n' :: 'a' :: 'n' :: rest => some (.float (String.ofList (sign ++ "nan".toList)), rest)
  | _ => none

/-! ## Dates and times -/

/-- Reads a number of two digits within bounds. -/
def readPair? (low high : Nat) : List Char → Option (Nat × List Char)
  | tens :: ones :: rest =>
    if isDigitIn 10 tens && isDigitIn 10 ones then
      let value := valueIn 10 [tens, ones]
      if low ≤ value && value ≤ high then some (value, rest) else none
    else none
  | _ => none

/-- Reads a given character. -/
def readChar? (expected : Char) : List Char → Option (List Char)
  | c :: rest => if c == expected then some rest else none
  | [] => none

/-- The characters after a fraction of a second, if there is one. -/
def dropFraction (chars : List Char) : List Char :=
  match chars with
  | '.' :: c :: rest => if isDigitIn 10 c then rest.dropWhile (isDigitIn 10) else chars
  | _ => chars

/-- The characters after a time of day. -/
def dropTime? (chars : List Char) : Option (List Char) := do
  let (_, rest) ← readPair? 0 23 chars
  let rest ← readChar? ':' rest
  let (_, rest) ← readPair? 0 59 rest
  let rest ← readChar? ':' rest
  let (_, rest) ← readPair? 0 59 rest
  return dropFraction rest

/-- The characters after a difference to universal time, if there is one. -/
def dropOffset (chars : List Char) : List Char :=
  match chars with
  | mark :: rest =>
    if mark == 'Z' || mark == 'z' then rest
    else if mark == '+' || mark == '-' then
      (do
        let (_, rest) ← readPair? 0 23 rest
        let rest ← readChar? ':' rest
        let (_, rest) ← readPair? 0 59 rest
        return rest : Option (List Char)).getD chars
    else chars
  | [] => []

/-- The characters after the time that may follow a date. -/
def dropTimeOfDate (chars : List Char) : List Char :=
  match chars with
  | mark :: rest =>
    if mark == 'T' || mark == 't' || mark == ' ' then
      match dropTime? rest with
      | some rest => dropOffset rest
      | none => chars
    else chars
  | [] => []

/-- The number of days of a month. -/
def daysIn (year month : Nat) : Nat :=
  if month == 2 then
    if year % 4 == 0 && (year % 100 != 0 || year % 400 == 0) then 29 else 28
  else if month == 4 || month == 6 || month == 9 || month == 11 then 30
  else 31

/-- The text between two places. -/
def written (chars rest : List Char) : String :=
  String.ofList (chars.take (chars.length - rest.length))

/-- Reads a date, with a time or without one. The date must be one of the calendar, and there is no
year zero. -/
def readDate? (chars : List Char) : Option (Except Problem (Value × List Char)) := do
  let (century, rest) ← readPair? 0 99 chars
  let (year, rest) ← readPair? 0 99 rest
  let rest ← readChar? '-' rest
  let (month, rest) ← readPair? 1 12 rest
  let rest ← readChar? '-' rest
  let (day, rest) ← readPair? 1 31 rest
  let year := century * 100 + year
  let rest := dropTimeOfDate rest
  if 1 ≤ year && day ≤ daysIn year month then
    return .ok (.moment (written chars rest), rest)
  else return fail .date chars

/-- Reads a time of day. -/
def readTime? (chars : List Char) : Option (Value × List Char) := do
  let rest ← dropTime? chars
  return (.moment (written chars rest), rest)

end DiceNotation.Toml
