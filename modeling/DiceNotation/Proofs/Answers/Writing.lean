import DiceNotation.Json
import DiceNotation.Proofs.TokenStream.Numerals

/-!
# A written value tells the value

Answers are written in two ways, on one line and over several. The two differ in the white space
that they put between the parts of a value, and in nothing else: each is a layout (`Json.Layout`).
What a layout makes of a value, in front of some rest, is `Json.Layout.before`.

Every part of a value is told by its first character and ends by itself. An escaped character can be
read back (`Json.readChar_escape`), a text ends at its quote, a number at what is no digit, and a
list or an object at its bracket. So what is written tells the value and what is behind it
(`Json.Layout.tells`). In particular no two values are written alike (`Json.compact_injective`,
`Json.indented_injective`).
-/

set_option autoImplicit false

namespace DiceNotation

namespace Text

/-! ## Hexadecimal digits -/

/-- The value of a hexadecimal digit in lower case. -/
def hexValue (c : Char) : Nat :=
  if c ≤ '9' then c.toNat - 48 else c.toNat - 87

theorem hexValue_digitChar {digit : Nat} (small : digit < 16) :
    hexValue (Nat.digitChar digit) = digit := by
  have all : ∀ digit < 16, hexValue (Nat.digitChar digit) = digit := by decide
  exact all digit small

/-- A further digit stands behind the others. -/
theorem toList_hexPadded_succ {width value : Nat} (present : 0 < width) :
    (hexPadded (width + 1) value).toList =
      (hexPadded width (value / 16)).toList ++ [Nat.digitChar (value % 16)] := by
  simp only [hexPadded, String.toList_ofList]
  by_cases small : value < 16
  · have zeros : List.replicate width '0' = List.replicate (width - 1) '0' ++ ['0'] := by
      rw [← List.replicate_succ', Nat.sub_add_cancel present]
    rw [Nat.toDigits_of_lt_base small, Nat.div_eq_of_lt small, Nat.mod_eq_of_lt small,
      Nat.toDigits_zero]
    simp [zeros]
  · rw [Nat.toDigits_of_base_le (by decide) (Nat.not_lt.mp small), List.length_append,
      List.length_singleton, Nat.add_sub_add_right, List.append_assoc]

/-- Four digits hold every number of sixteen bits. -/
theorem toList_hexPadded_four {value : Nat} (small : value < 0x10000) :
    (hexPadded 4 value).toList =
      [Nat.digitChar (value / 16 / 16 / 16), Nat.digitChar (value / 16 / 16 % 16),
        Nat.digitChar (value / 16 % 16), Nat.digitChar (value % 16)] := by
  have first : (hexPadded 1 (value / 16 / 16 / 16)).toList =
      [Nat.digitChar (value / 16 / 16 / 16)] := by
    simp only [hexPadded, String.toList_ofList]
    rw [Nat.toDigits_of_lt_base (by omega)]
    rfl
  rw [toList_hexPadded_succ (by decide), toList_hexPadded_succ (by decide),
    toList_hexPadded_succ (by decide), first]
  rfl

/-- Reads four hexadecimal digits. -/
def readUnit : List Char → Option (Nat × List Char)
  | a :: b :: c :: d :: rest =>
    some (((hexValue a * 16 + hexValue b) * 16 + hexValue c) * 16 + hexValue d, rest)
  | _ => none

theorem readUnit_hexPadded {value : Nat} (small : value < 0x10000) (rest : List Char) :
    readUnit ((hexPadded 4 value).toList ++ rest) = some (value, rest) := by
  rw [toList_hexPadded_four small]
  simp only [List.cons_append, List.nil_append, readUnit]
  rw [hexValue_digitChar (by omega), hexValue_digitChar (by omega), hexValue_digitChar (by omega),
    hexValue_digitChar (by omega)]
  have whole : ((value / 16 / 16 / 16 * 16 + value / 16 / 16 % 16) * 16 + value / 16 % 16) * 16 +
      value % 16 = value := by omega
  rw [whole]

end Text

namespace Json

/-! ## Characters -/

/-- The character that a letter behind a backslash stands for. -/
def shortEscape? : Char → Option Char
  | '"' => some '"'
  | '\\' => some '\\'
  | 'n' => some '\n'
  | 'r' => some '\r'
  | 't' => some '\t'
  | 'b' => some (Char.ofNat 0x8)
  | 'f' => some (Char.ofNat 0xC)
  | _ => none

/-- The character that one UTF-16 unit stands for, or two. -/
def ofUnits (unit : Nat) (rest : List Char) : Option (Char × List Char) :=
  if 0xD800 ≤ unit ∧ unit < 0xDC00 then
    match rest with
    | '\\' :: 'u' :: rest =>
      (Text.readUnit rest).map fun (low, rest) =>
        (Char.ofNat (0x10000 + (unit - 0xD800) * 0x400 + (low - 0xDC00)), rest)
    | _ => none
  else some (Char.ofNat unit, rest)

/-- Reads a character of a text. -/
def readChar : List Char → Option (Char × List Char)
  | '\\' :: 'u' :: rest => (Text.readUnit rest).bind fun (unit, rest) => ofUnits unit rest
  | '\\' :: letter :: rest => (shortEscape? letter).map fun c => (c, rest)
  | c :: rest => some (c, rest)
  | [] => none

/-- A code point is below the surrogates or behind them. -/
theorem toNat_cases (c : Char) : c.toNat < 0xD800 ∨ 0xDFFF < c.toNat ∧ c.toNat < 0x110000 :=
  c.valid

theorem readChar_unit {unit : Nat} (small : unit < 0x10000) (rest : List Char) :
    readChar ((escapeUnit unit).toList ++ rest) = ofUnits unit rest := by
  rw [escapeUnit, String.toList_append, List.append_assoc]
  change (Text.readUnit ((Text.hexPadded 4 unit).toList ++ rest)).bind _ = _
  rw [Text.readUnit_hexPadded small]
  rfl

/-- A unit that is no first half of a pair stands for a character by itself. -/
theorem ofUnits_alone {unit : Nat} (alone : ¬ (0xD800 ≤ unit ∧ unit < 0xDC00))
    (rest : List Char) : ofUnits unit rest = some (Char.ofNat unit, rest) := by
  unfold ofUnits
  exact if_neg alone

/-- The halves of a pair stand for a character together. -/
theorem ofUnits_pair {high low : Nat} (first : 0xD800 ≤ high ∧ high < 0xDC00)
    (small : low < 0x10000) (rest : List Char) :
    ofUnits high ((escapeUnit low).toList ++ rest) =
      some (Char.ofNat (0x10000 + (high - 0xD800) * 0x400 + (low - 0xDC00)), rest) := by
  unfold ofUnits
  rw [if_pos first, escapeUnit, String.toList_append, List.append_assoc]
  change (Text.readUnit ((Text.hexPadded 4 low).toList ++ rest)).map _ = _
  rw [Text.readUnit_hexPadded small]
  rfl

/-- **A character is read back**, whatever is behind it. -/
theorem readChar_escape (c : Char) (rest : List Char) :
    readChar ((escapeChar c).toList ++ rest) = some (c, rest) := by
  have valid := toNat_cases c
  simp only [escapeChar, beq_iff_eq, Bool.and_eq_true, decide_eq_true_eq]
  split_ifs with quote backslash lineFeed carriage tab back form plain short
  · subst quote
    rfl
  · subst backslash
    rfl
  · subst lineFeed
    rfl
  · subst carriage
    rfl
  · subst tab
    rfl
  · rw [← Char.ofNat_toNat c, back]
    rfl
  · rw [← Char.ofNat_toNat c, form]
    rfl
  · have same : c.toString.toList = [c] := String.toList_singleton c
    rw [same]
    unfold readChar
    split
    · rename_i same
      exact absurd (List.cons.inj same).1 backslash
    · rename_i same
      exact absurd (List.cons.inj same).1 backslash
    · rename_i same
      obtain ⟨rfl, rfl⟩ := List.cons.inj same
      rfl
    · rename_i same
      cases same
  · rw [readChar_unit (by omega), ofUnits_alone (by omega), Char.ofNat_toNat]
  · rw [String.toList_append, List.append_assoc, readChar_unit (by omega),
      ofUnits_pair (by omega) (by omega)]
    have code : 0x10000 + (0xD800 + (c.toNat - 0x10000) / 0x400 - 0xD800) * 0x400 +
        (0xDC00 + (c.toNat - 0x10000) % 0x400 - 0xDC00) = c.toNat := by omega
    rw [code, Char.ofNat_toNat]

/-- What is written for a character tells it, and what is behind it. -/
theorem escapeChar_append_inj {c d : Char} {rest rest' : List Char}
    (same : (escapeChar c).toList ++ rest = (escapeChar d).toList ++ rest') :
    c = d ∧ rest = rest' := by
  have read := readChar_escape c rest
  rw [same, readChar_escape] at read
  obtain ⟨rfl, rfl⟩ := Prod.mk.inj (Option.some.inj read)
  exact ⟨rfl, rfl⟩

/-- No character is written as a quote. -/
theorem escapeChar_append_ne (c : Char) (rest others : List Char) :
    (escapeChar c).toList ++ rest ≠ '"' :: others := by
  intro same
  have read := readChar_escape c rest
  rw [same] at read
  obtain ⟨rfl, rfl⟩ := Prod.mk.inj (Option.some.inj read)
  cases same

/-! ## Texts -/

/-- The characters of a text as they are written, the quote behind them, and some rest. -/
def closeQuote : List Char → List Char → List Char
  | [], rest => '"' :: rest
  | c :: chars, rest => (escapeChar c).toList ++ closeQuote chars rest

theorem closeQuote_append (chars rest more : List Char) :
    closeQuote chars rest ++ more = closeQuote chars (rest ++ more) := by
  induction chars with
  | nil => rfl
  | cons c chars ih => simp only [closeQuote, List.append_assoc, ih]

theorem toList_quote_append (text : String) (rest : List Char) :
    (quote text).toList ++ rest = '"' :: closeQuote text.toList rest := by
  have folded (chars : List Char) : ∀ out : String,
      (chars.foldl (fun out c => out ++ escapeChar c) out).toList ++ '"' :: rest =
        out.toList ++ closeQuote chars rest := by
    induction chars with
    | nil => exact fun out => rfl
    | cons c chars ih =>
        intro out
        rw [List.foldl_cons, ih, String.toList_append, List.append_assoc, closeQuote]
  rw [quote, String.foldl_eq_foldl_toList, String.toList_append, List.append_assoc]
  exact folded text.toList "\""

/-- **A text ends at its quote.** -/
theorem closeQuote_inj {chars others rest rest' : List Char}
    (same : closeQuote chars rest = closeQuote others rest') : chars = others ∧ rest = rest' := by
  induction chars generalizing others with
  | nil =>
      cases others with
      | nil => exact ⟨rfl, (List.cons.inj same).2⟩
      | cons d others => exact absurd same.symm (escapeChar_append_ne d _ _)
  | cons c chars ih =>
      cases others with
      | nil => exact absurd same (escapeChar_append_ne c _ _)
      | cons d others =>
          obtain ⟨rfl, behind⟩ := escapeChar_append_inj same
          obtain ⟨rfl, rfl⟩ := ih behind
          exact ⟨rfl, rfl⟩

/-! ## Layouts -/

/-- The white space between the parts of a value: behind an opening bracket, behind a comma, and
before a closing bracket. -/
structure Layout where
  opening : Nat → List Char
  gap : Nat → List Char
  closing : Nat → List Char
  blank : ∀ level, ∀ c ∈ opening level ++ closing level, c = ' ' ∨ c = '\n'

namespace Layout

mutual

/-- A value as it is written at a level, and some rest. -/
def before (layout : Layout) (level : Nat) : Json → List Char → List Char
  | null, rest => 'n' :: 'u' :: 'l' :: 'l' :: rest
  | boolean true, rest => 't' :: 'r' :: 'u' :: 'e' :: rest
  | boolean false, rest => 'f' :: 'a' :: 'l' :: 's' :: 'e' :: rest
  | integer value, rest => (toString value).toList ++ rest
  | text value, rest => '"' :: closeQuote value.toList rest
  | list [], rest => '[' :: ']' :: rest
  | list (item :: items), rest =>
    '[' :: (layout.opening level ++ layout.before (level + 1) item
      (layout.beforeItems level items (layout.closing level ++ ']' :: rest)))
  | object [], rest => '\x7b' :: '\x7d' :: rest
  | object ((name, value) :: members), rest =>
    '\x7b' :: (layout.opening level ++ '"' :: closeQuote name.toList
      (':' :: ' ' :: layout.before (level + 1) value
        (layout.beforeMembers level members (layout.closing level ++ '\x7d' :: rest))))

/-- Further items of a list, and some rest. -/
def beforeItems (layout : Layout) (level : Nat) : List Json → List Char → List Char
  | [], rest => rest
  | item :: items, rest =>
    ',' :: (layout.gap level ++
      layout.before (level + 1) item (layout.beforeItems level items rest))

/-- Further members of an object, and some rest. -/
def beforeMembers (layout : Layout) (level : Nat) : List (String × Json) → List Char → List Char
  | [], rest => rest
  | (name, value) :: members, rest =>
    ',' :: (layout.gap level ++ '"' :: closeQuote name.toList
      (':' :: ' ' :: layout.before (level + 1) value (layout.beforeMembers level members rest)))

end

/-! ## First characters -/

/-- The kinds of values, as far as the first character tells them. -/
inductive Kind
  | null
  | boolean (value : Bool)
  | integer
  | text
  | list
  | object

/-- The kind of the values that are written with a first character. -/
def Kind.ofFirst? (c : Char) : Option Kind :=
  if Text.isDigit c || c == '-' then some integer
  else
    match c with
    | 'n' => some null
    | 't' => some (boolean true)
    | 'f' => some (boolean false)
    | '"' => some text
    | '[' => some list
    | '\x7b' => some object
    | _ => none

end Layout

/-- The kind of a value. -/
def kind : Json → Layout.Kind
  | null => .null
  | boolean value => .boolean value
  | integer _ => .integer
  | text _ => .text
  | list _ => .list
  | object _ => .object

namespace Layout

variable {layout : Layout} {level : Nat} {value other : Json} {rest rest' : List Char}

/-- **The first character tells the kind.** -/
theorem exists_first (layout : Layout) (level : Nat) (value : Json) (rest : List Char) :
    ∃ c behind, layout.before level value rest = c :: behind ∧
      Kind.ofFirst? c = some value.kind := by
  match value with
  | .null | .boolean true | .boolean false | .text _ | .list [] | .list (_ :: _) | .object []
  | .object (_ :: _) =>
      rw [before]
      exact ⟨_, _, rfl, rfl⟩
  | .integer (.ofNat value) =>
      obtain ⟨c, digits, written, digit⟩ := Text.exists_head_toDigits value
      refine ⟨c, digits ++ rest, ?_, ?_⟩
      · rw [before, Text.toList_toString_ofNat, written]
        rfl
      · simp [Kind.ofFirst?, digit, kind]
  | .integer (.negSucc value) =>
      refine ⟨'-', Nat.toDigits 10 (value + 1) ++ rest, ?_, rfl⟩
      rw [before, Text.toList_toString_negSucc]
      rfl

theorem kind_eq (same : layout.before level value rest = layout.before level other rest') :
    value.kind = other.kind := by
  obtain ⟨c, behind, written, first⟩ := exists_first layout level value rest
  obtain ⟨d, behind', written', first'⟩ := exists_first layout level other rest'
  rw [written, written'] at same
  obtain ⟨rfl, _⟩ := List.cons.inj same
  exact Option.some.inj (first.symm.trans first')

/-- No value starts with a closing bracket. -/
theorem before_ne {bracket : Char} (none : Kind.ofFirst? bracket = none) (others : List Char) :
    layout.before level value rest ≠ bracket :: others := by
  obtain ⟨c, behind, written, first⟩ := exists_first layout level value rest
  rw [written]
  intro same
  obtain ⟨rfl, _⟩ := List.cons.inj same
  cases none.symm.trans first

/-! ## White space -/

/-- White space in front of something does not make a bracket of it. -/
theorem opening_append_ne {bracket : Char} {chars : List Char}
    (visible : bracket ≠ ' ' ∧ bracket ≠ '\n') (none : ∀ others, chars ≠ bracket :: others)
    (others : List Char) : layout.opening level ++ chars ≠ bracket :: others := by
  intro same
  cases white : layout.opening level with
  | nil =>
      rw [white] at same
      exact none others same
  | cons c behind =>
      rw [white] at same
      obtain ⟨rfl, _⟩ := List.cons.inj same
      have blank := layout.blank level c (by simp [white])
      exact blank.elim visible.1 visible.2

/-- Nothing that goes on with a further item, or with a digit. -/
def Closes (rest : List Char) : Prop :=
  ∀ c ∈ rest.head?, c ≠ ',' ∧ Text.isDigit c = false

theorem Closes.ends (closes : Closes rest) : Text.Ends rest :=
  fun c first => (closes c first).2

theorem closes_closing {bracket : Char} (other : bracket ≠ ',')
    (mark : Text.isDigit bracket = false) : Closes (layout.closing level ++ bracket :: rest) := by
  intro c first
  cases white : layout.closing level with
  | nil =>
      rw [white] at first
      cases first
      exact ⟨other, mark⟩
  | cons d behind =>
      rw [white] at first
      obtain rfl := Option.some.inj first
      rcases layout.blank level d (by simp [white]) with rfl | rfl
      · decide
      · decide

theorem ends_beforeItems (items : List Json) (closes : Closes rest) :
    Text.Ends (layout.beforeItems level items rest) := by
  cases items with
  | nil => exact closes.ends
  | cons item items =>
      rw [beforeItems]
      rintro _ ⟨⟩
      rfl

theorem ends_beforeMembers (members : List (String × Json)) (closes : Closes rest) :
    Text.Ends (layout.beforeMembers level members rest) := by
  cases members with
  | nil => exact closes.ends
  | cons member members =>
      rw [beforeMembers]
      rintro _ ⟨⟩
      rfl

/-! ## Telling values apart -/

/-- What is written of a value tells it, and what is behind it. -/
def Tells (layout : Layout) (value : Json) : Prop :=
  ∀ {other : Json} {level : Nat} {rest rest' : List Char}, Text.Ends rest → Text.Ends rest' →
    layout.before level value rest = layout.before level other rest' →
      value = other ∧ rest = rest'

/-- A member is told by its name and its value. -/
theorem member_inj {name name' : String} (tells : layout.Tells value)
    (ends : Text.Ends rest) (ends' : Text.Ends rest')
    (same : closeQuote name.toList (':' :: ' ' :: layout.before level value rest) =
      closeQuote name'.toList (':' :: ' ' :: layout.before level other rest')) :
    name = name' ∧ value = other ∧ rest = rest' := by
  obtain ⟨chars, behind⟩ := closeQuote_inj same
  have inner := (List.cons.inj (List.cons.inj behind).2).2
  exact ⟨String.toList_injective chars, tells ends ends' inner⟩

mutual

/-- **Every value is told by what is written of it.** -/
theorem tells (layout : Layout) : ∀ value : Json, layout.Tells value
  | .null, other, level, rest, rest', _, _, same => by
      have kinds := kind_eq same
      cases other <;> cases kinds
      simpa [before] using same
  | .boolean truth, other, level, rest, rest', _, _, same => by
      have kinds := kind_eq same
      cases other <;> cases kinds
      cases truth <;> simpa [before] using same
  | .integer number, other, level, rest, rest', ends, ends', same => by
      have kinds := kind_eq same
      cases other <;> cases kinds
      rw [before, before] at same
      obtain ⟨rfl, behind⟩ := Text.toString_append_inj ends ends' same
      exact ⟨rfl, behind⟩
  | .text chars, other, level, rest, rest', _, _, same => by
      have kinds := kind_eq same
      cases other <;> cases kinds
      rw [before, before] at same
      obtain ⟨chars, behind⟩ := closeQuote_inj (List.cons.inj same).2
      exact ⟨congrArg Json.text (String.toList_injective chars), behind⟩
  | .list [], other, level, rest, rest', _, _, same => by
      have kinds := kind_eq same
      cases other <;> cases kinds
      rename_i others
      cases others with
      | nil =>
          rw [before, before] at same
          exact ⟨rfl, (List.cons.inj (List.cons.inj same).2).2⟩
      | cons item others =>
          rw [before, before] at same
          exact absurd (List.cons.inj same).2.symm
            (opening_append_ne (by decide) (before_ne rfl) _)
  | .list (item :: items), other, level, rest, rest', _, _, same => by
      have kinds := kind_eq same
      cases other <;> cases kinds
      rename_i others
      cases others with
      | nil =>
          rw [before, before] at same
          exact absurd (List.cons.inj same).2 (opening_append_ne (by decide) (before_ne rfl) _)
      | cons item' others =>
          rw [before, before] at same
          have inner := List.append_cancel_left (List.cons.inj same).2
          have closes (rest : List Char) : Closes (layout.closing level ++ ']' :: rest) :=
            closes_closing (by decide) rfl
          obtain ⟨rfl, behind⟩ := tells layout item (ends_beforeItems items (closes rest))
            (ends_beforeItems others (closes rest')) inner
          obtain ⟨rfl, closed⟩ := tells_items layout items (closes rest) (closes rest') behind
          exact ⟨rfl, (List.cons.inj (List.append_cancel_left closed)).2⟩
  | .object [], other, level, rest, rest', _, _, same => by
      have kinds := kind_eq same
      cases other <;> cases kinds
      rename_i others
      cases others with
      | nil =>
          rw [before, before] at same
          exact ⟨rfl, (List.cons.inj (List.cons.inj same).2).2⟩
      | cons member others =>
          obtain ⟨name, value⟩ := member
          rw [before, before] at same
          exact absurd (List.cons.inj same).2.symm
            (opening_append_ne (by decide) (by simp) _)
  | .object ((name, value) :: members), other, level, rest, rest', _, _, same => by
      have kinds := kind_eq same
      cases other <;> cases kinds
      rename_i others
      cases others with
      | nil =>
          rw [before, before] at same
          exact absurd (List.cons.inj same).2 (opening_append_ne (by decide) (by simp) _)
      | cons member others =>
          obtain ⟨name', value'⟩ := member
          rw [before, before] at same
          have inner := (List.cons.inj (List.append_cancel_left (List.cons.inj same).2)).2
          have closes (rest : List Char) : Closes (layout.closing level ++ '\x7d' :: rest) :=
            closes_closing (by decide) rfl
          obtain ⟨rfl, rfl, behind⟩ := member_inj (tells layout value)
            (ends_beforeMembers members (closes rest))
            (ends_beforeMembers others (closes rest')) inner
          obtain ⟨rfl, closed⟩ := tells_members layout members (closes rest) (closes rest') behind
          exact ⟨rfl, (List.cons.inj (List.append_cancel_left closed)).2⟩

theorem tells_items (layout : Layout) : ∀ (items : List Json) {others : List Json} {level : Nat}
    {rest rest' : List Char}, Closes rest → Closes rest' →
      layout.beforeItems level items rest = layout.beforeItems level others rest' →
        items = others ∧ rest = rest'
  | [], others, level, rest, rest', closes, _, same => by
      cases others with
      | nil => exact ⟨rfl, same⟩
      | cons item others =>
          rw [beforeItems, beforeItems] at same
          have comma := closes ',' (by rw [same]; rfl)
          exact absurd rfl comma.1
  | item :: items, others, level, rest, rest', closes, closes', same => by
      cases others with
      | nil =>
          rw [beforeItems, beforeItems] at same
          have comma := closes' ',' (by rw [← same]; rfl)
          exact absurd rfl comma.1
      | cons item' others =>
          rw [beforeItems, beforeItems] at same
          have inner := List.append_cancel_left (List.cons.inj same).2
          obtain ⟨rfl, behind⟩ := tells layout item (ends_beforeItems items closes)
            (ends_beforeItems others closes') inner
          obtain ⟨rfl, rfl⟩ := tells_items layout items closes closes' behind
          exact ⟨rfl, rfl⟩

theorem tells_members (layout : Layout) : ∀ (members : List (String × Json))
    {others : List (String × Json)} {level : Nat} {rest rest' : List Char},
      Closes rest → Closes rest' →
      layout.beforeMembers level members rest = layout.beforeMembers level others rest' →
        members = others ∧ rest = rest'
  | [], others, level, rest, rest', closes, _, same => by
      cases others with
      | nil => exact ⟨rfl, same⟩
      | cons member others =>
          rw [beforeMembers, beforeMembers] at same
          have comma := closes ',' (by rw [same]; rfl)
          exact absurd rfl comma.1
  | (name, value) :: members, others, level, rest, rest', closes, closes', same => by
      cases others with
      | nil =>
          rw [beforeMembers, beforeMembers] at same
          have comma := closes' ',' (by rw [← same]; rfl)
          exact absurd rfl comma.1
      | cons member others =>
          obtain ⟨name', value'⟩ := member
          rw [beforeMembers, beforeMembers] at same
          have inner := (List.cons.inj (List.append_cancel_left (List.cons.inj same).2)).2
          obtain ⟨rfl, rfl, behind⟩ := member_inj (tells layout value)
            (ends_beforeMembers members closes) (ends_beforeMembers others closes') inner
          obtain ⟨rfl, rfl⟩ := tells_members layout members closes closes' behind
          exact ⟨rfl, rfl⟩

end

/-! ## The two layouts -/

/-- Everything on one line, with a blank behind a comma. -/
def oneLine : Layout where
  opening _ := []
  gap _ := [' ']
  closing _ := []
  blank _ _ impossible := nomatch impossible

/-- Every part on a line of its own. -/
def manyLines : Layout where
  opening level := (lineBreak (level + 1)).toList
  gap level := (lineBreak (level + 1)).toList
  closing level := (lineBreak level).toList
  blank level c member := by
    have white {level : Nat} (member : c ∈ (lineBreak level).toList) : c = ' ' ∨ c = '\n' := by
      rw [lineBreak, String.toList_ofList] at member
      rcases List.mem_cons.mp member with rfl | space
      · exact .inr rfl
      · exact .inl (List.eq_of_mem_replicate space)
    rcases List.mem_append.mp member with front | back
    · exact white front
    · exact white back

mutual

theorem toList_writeLine_append (level : Nat) : ∀ (value : Json) (out : String)
    (rest : List Char),
    (writeLine out value).toList ++ rest = out.toList ++ oneLine.before level value rest
  | .null, out, rest | .boolean true, out, rest | .boolean false, out, rest
  | .integer _, out, rest | .list [], out, rest | .object [], out, rest => by
      simp [writeLine, writeItems, writeMembers, before]
  | .text value, out, rest => by
      simp [writeLine, before, toList_quote_append]
  | .list (item :: items), out, rest => by
      rw [writeLine, writeItems, String.toList_append, List.append_assoc,
        toList_writeItems_append level, toList_writeLine_append (level + 1)]
      simp [before, oneLine]
  | .object ((name, value) :: members), out, rest => by
      rw [writeLine, writeMembers, String.toList_append, List.append_assoc,
        toList_writeMembers_append level, toList_writeLine_append (level + 1)]
      simp [before, oneLine, toList_quote_append, closeQuote_append]

theorem toList_writeItems_append (level : Nat) : ∀ (items : List Json) (out : String)
    (rest : List Char),
    (writeItems out ", " items).toList ++ rest =
      out.toList ++ oneLine.beforeItems level items rest
  | [], out, rest => rfl
  | item :: items, out, rest => by
      rw [writeItems, toList_writeItems_append level, toList_writeLine_append (level + 1)]
      simp [beforeItems, oneLine]

theorem toList_writeMembers_append (level : Nat) : ∀ (members : List (String × Json))
    (out : String) (rest : List Char),
    (writeMembers out ", " members).toList ++ rest =
      out.toList ++ oneLine.beforeMembers level members rest
  | [], out, rest => rfl
  | (name, value) :: members, out, rest => by
      rw [writeMembers, toList_writeMembers_append level, toList_writeLine_append (level + 1)]
      simp [beforeMembers, oneLine, toList_quote_append, closeQuote_append]

end

mutual

theorem toList_writeLines_append : ∀ (value : Json) (level : Nat) (out : String)
    (rest : List Char),
    (writeLines level out value).toList ++ rest = out.toList ++ manyLines.before level value rest
  | .null, level, out, rest | .boolean true, level, out, rest | .boolean false, level, out, rest
  | .integer _, level, out, rest | .list [], level, out, rest | .object [], level, out, rest => by
      simp [writeLines, before]
  | .text value, level, out, rest => by
      simp [writeLines, before, toList_quote_append]
  | .list (item :: items), level, out, rest => by
      rw [writeLines, indentItems, String.toList_append, String.toList_append, List.append_assoc,
        List.append_assoc, toList_indentItems_append, toList_writeLines_append]
      · simp [before, manyLines]
      · simp
  | .object ((name, value) :: members), level, out, rest => by
      rw [writeLines, indentMembers, String.toList_append, String.toList_append,
        List.append_assoc, List.append_assoc, toList_indentMembers_append,
        toList_writeLines_append]
      · simp [before, manyLines, toList_quote_append, closeQuote_append]
      · simp

theorem toList_indentItems_append : ∀ (items : List Json) (level : Nat) (out : String)
    (rest : List Char),
    (indentItems (level + 1) out "," items).toList ++ rest =
      out.toList ++ manyLines.beforeItems level items rest
  | [], level, out, rest => rfl
  | item :: items, level, out, rest => by
      rw [indentItems, toList_indentItems_append, toList_writeLines_append]
      simp [beforeItems, manyLines]

theorem toList_indentMembers_append : ∀ (members : List (String × Json)) (level : Nat)
    (out : String) (rest : List Char),
    (indentMembers (level + 1) out "," members).toList ++ rest =
      out.toList ++ manyLines.beforeMembers level members rest
  | [], level, out, rest => rfl
  | (name, value) :: members, level, out, rest => by
      rw [indentMembers, toList_indentMembers_append, toList_writeLines_append]
      simp [beforeMembers, manyLines, toList_quote_append, closeQuote_append]

end

/-- No two values are written alike in a layout. -/
theorem before_injective (layout : Layout) :
    Function.Injective fun value => layout.before 0 value [] :=
  fun value _ same => (layout.tells value Text.ends_nil Text.ends_nil same).1

end Layout

/-! ## Two values -/

theorem toList_compact (value : Json) :
    (compact value).toList = Layout.oneLine.before 0 value [] := by
  have whole := Layout.toList_writeLine_append 0 value "" []
  rwa [List.append_nil] at whole

theorem toList_indented (value : Json) :
    (indented value).toList = Layout.manyLines.before 0 value [] := by
  have whole := Layout.toList_writeLines_append value 0 "" []
  rwa [List.append_nil] at whole

/-- **No two values are written alike on one line.** -/
theorem compact_injective : Function.Injective compact := by
  intro value other same
  apply Layout.oneLine.before_injective
  simp only [← toList_compact, same]

/-- **No two values are written alike over several lines.** -/
theorem indented_injective : Function.Injective indented := by
  intro value other same
  apply Layout.manyLines.before_injective
  simp only [← toList_indented, same]

end Json

end DiceNotation
