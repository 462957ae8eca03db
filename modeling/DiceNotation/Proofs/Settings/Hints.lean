import DiceNotation.Proofs.Settings.Loading
import DiceNotation.Proofs.TokenStream.Numerals
import DiceNotation.Report

/-!
# Hints about settings

There is one hint about settings, to give a settings file or to make one. It is chosen by two words
of the message: the name of a settings file, and the word for finding, in any letter case
(`settingsHint?_eq`). The words of the program itself put both only into the message of a search
that found nothing. But a message also shows the path of the file that was chosen, and the detail
that is told of a text that is no TOML, and these may hold the words as well.

What keeps a file from giving settings depends on what its path leads to, and not on how the path is
spelled (`Trouble.ofFound?`, `ofFile_eq_defect_iff`). The hint does depend on it. The blanks and the
colon between the parts of a message belong to neither word, so a word is in the message exactly if
it is in one of the parts (`isInfix_separated_iff`), and the parts decide (`Trouble.IsHinted`). What
is wrong with the table of a file is never told with the hint (`hint?_of_mem_defects`).

The main statement is `settings_hint_follows_words`: of two paths that lead to the same, both give
the hint or neither does if they hold the same of the two words. `hint_of_findings` shows that this
cannot be left out.
-/

set_option autoImplicit false

namespace DiceNotation

/-! ## Words in a text -/

/-- Looking for a part of a text finds the parts of the text. -/
theorem occursIn_iff {part text : List Char} : occursIn part text = true ↔ part <:+: text := by
  induction text with
  | nil => rw [occursIn, List.isEmpty_iff, List.infix_nil]
  | cons c rest ih =>
      rw [occursIn, Bool.or_eq_true, List.isPrefixOf_iff_prefix, ih, List.infix_cons_iff]

section

variable {α : Type} {word front back : List α} {separator : α}

theorem isPrefix_separated_iff (apart : separator ∉ word) (front back : List α) :
    word <+: front ++ separator :: back ↔ word <+: front := by
  induction front generalizing word with
  | nil =>
      cases word with
      | nil => simp
      | cons c word =>
          have other : c ≠ separator := (List.ne_of_not_mem_cons apart).symm
          simp [List.cons_prefix_cons, other]
  | cons d front ih =>
      cases word with
      | nil => simp
      | cons c word =>
          rw [List.cons_append, List.cons_prefix_cons, List.cons_prefix_cons,
            ih (List.not_mem_of_not_mem_cons apart)]

/-- **A word is in a text with a separator exactly if it is before or behind it**, if the separator
is not in the word. -/
theorem isInfix_separated_iff (apart : separator ∉ word) :
    word <:+: front ++ separator :: back ↔ word <:+: front ∨ word <:+: back := by
  induction front with
  | nil =>
      have first : word <+: separator :: back ↔ word <+: [] :=
        isPrefix_separated_iff apart [] back
      rw [List.nil_append, List.infix_cons_iff, first, List.prefix_nil, List.infix_nil]
  | cons c front ih =>
      have first : word <+: c :: (front ++ separator :: back) ↔ word <+: c :: front :=
        isPrefix_separated_iff apart (c :: front) back
      rw [List.cons_append, List.infix_cons_iff, first, ih, List.infix_cons_iff, or_assoc]

/-- **A word is in a text of two parts exactly if it is in one of them**, if the parts meet at a
character that is not in the word. -/
theorem isInfix_append_iff (present : word ≠ []) (apart : separator ∉ word)
    (meet : front.getLast? = some separator ∨ back.head? = some separator) :
    word <:+: front ++ back ↔ word <:+: front ∨ word <:+: back := by
  have absent : ¬ word <:+: [] := fun empty => present (List.infix_nil.mp empty)
  rcases meet with last | first
  · obtain ⟨before, rfl⟩ := List.getLast?_eq_some_iff.mp last
    rw [List.append_assoc, List.singleton_append, isInfix_separated_iff apart,
      isInfix_separated_iff apart, or_iff_left absent]
  · obtain ⟨behind, rfl⟩ := List.head?_eq_some_iff.mp first
    have alone : word <:+: separator :: behind ↔ word <:+: [] ∨ word <:+: behind :=
      @isInfix_separated_iff α word [] behind separator apart
    rw [isInfix_separated_iff apart, alone, or_iff_right absent]

end

/-- A text holds the name of a settings file. -/
def NamesFile (text : String) : Prop :=
  Settings.fileName.toList <:+: text.toList

/-- A text holds the word for finding, in any letter case. -/
def SpeaksOfFinding (text : String) : Prop :=
  "find".toList <:+: text.toList.map Char.toLower

/-- A text holds both of the words that the hint about settings is chosen by. -/
def HoldsWords (text : String) : Prop :=
  NamesFile text ∧ SpeaksOfFinding text

instance : DecidablePred NamesFile :=
  fun _ => inferInstanceAs (Decidable (_ <:+: _))

instance : DecidablePred SpeaksOfFinding :=
  fun _ => inferInstanceAs (Decidable (_ <:+: _))

instance : DecidablePred HoldsWords :=
  fun _ => inferInstanceAs (Decidable (_ ∧ _))

/-- Two parts of a message meet at a blank or a colon. -/
def Meet (front back : String) : Prop :=
  front.toList.getLast? = some ' ' ∨ back.toList.head? = some ':'

section

variable {front back : String}

theorem namesFile_append_iff (meet : Meet front back) :
    NamesFile (front ++ back) ↔ NamesFile front ∨ NamesFile back := by
  unfold NamesFile
  rw [String.toList_append]
  rcases meet with blank | colon
  · exact isInfix_append_iff (by decide) (by decide) (.inl blank)
  · exact isInfix_append_iff (by decide) (by decide) (.inr colon)

theorem speaksOfFinding_append_iff (meet : Meet front back) :
    SpeaksOfFinding (front ++ back) ↔ SpeaksOfFinding front ∨ SpeaksOfFinding back := by
  unfold SpeaksOfFinding
  rw [String.toList_append, List.map_append]
  rcases meet with blank | colon
  · refine isInfix_append_iff (by decide) (by decide : ' ' ∉ "find".toList) (.inl ?_)
    rw [List.getLast?_map, blank]
    rfl
  · refine isInfix_append_iff (by decide) (by decide : ':' ∉ "find".toList) (.inr ?_)
    rw [List.head?_map, colon]
    rfl

/-- A front that holds neither of the words leaves them to what is behind it. -/
theorem holdsWords_append_iff (meet : Meet front back)
    (plain : ¬ NamesFile front ∧ ¬ SpeaksOfFinding front) :
    HoldsWords (front ++ back) ↔ HoldsWords back := by
  unfold HoldsWords
  rw [namesFile_append_iff meet, speaksOfFinding_append_iff meet, or_iff_right plain.1,
    or_iff_right plain.2]

end

/-- The hint to give a settings file or to make one. -/
def fileHint : String :=
  "pass --config or create droll.toml with `version = 1`"

/-- **The hint about settings is chosen by the two words of a message.** -/
theorem settingsHint?_eq (message : String) :
    settingsHint? message =
      if HoldsWords message then some fileHint else none := by
  unfold settingsHint?
  simp only [Bool.and_eq_true, occursIn_iff]
  rfl

namespace Settings

/-! ## What keeps a file from giving settings -/

/-- Why a file gives no settings, whatever its path is. -/
inductive Trouble
  | missing
  | unreadable
  | notUtf8
  | notToml (detail : String)
  | unsound (defect : Defect)

namespace Trouble

/-- The defect that is told of a trouble at a path. -/
def defect (path : String) : Trouble → Defect
  | missing => .missing path
  | unreadable => .unreadable path
  | notUtf8 => .notUtf8 path
  | notToml detail => .notToml path detail
  | unsound defect => defect

/-- The trouble with the content of a file, if there is one that is told. -/
def ofContent? (host : Host) (content : ByteArray) : Option Trouble :=
  match String.fromUTF8? content with
  | none => some notUtf8
  | some text =>
    match host.readToml text with
    | .error (.malformed detail) => some (notToml detail)
    | .error (.numeralTooLong _) => none
    | .ok data =>
      match ofData host data with
      | .error _ => none
      | .ok (.error defect) => some (unsound defect)
      | .ok (.ok _) => none

/-- The trouble with what a path leads to, if there is one that is told. -/
def ofFound? (host : Host) : Except Obstacle Entry → Option Trouble
  | .error .missing => some missing
  | .error .notDirectory => some unreadable
  | .error .nameTooLong => some unreadable
  | .error .denied => some unreadable
  | .error .nullCharacter => none
  | .ok .directory => some unreadable
  | .ok (.file none) => some unreadable
  | .ok (.file (some content)) => ofContent? host content

/-- What the hint to a trouble hangs on: the words in the path, and in the detail if one is told. -/
def IsHinted (path : String) : Trouble → Prop
  | missing => SpeaksOfFinding path
  | unreadable => HoldsWords path
  | notUtf8 => HoldsWords path
  | notToml detail =>
    (NamesFile path ∨ NamesFile detail) ∧ (SpeaksOfFinding path ∨ SpeaksOfFinding detail)
  | unsound _ => False

instance (path : String) : DecidablePred (IsHinted path)
  | missing => inferInstanceAs (Decidable (SpeaksOfFinding _))
  | unreadable => inferInstanceAs (Decidable (HoldsWords _))
  | notUtf8 => inferInstanceAs (Decidable (HoldsWords _))
  | notToml _ => inferInstanceAs (Decidable ((_ ∨ _) ∧ (_ ∨ _)))
  | unsound _ => inferInstanceAs (Decidable False)

end Trouble

variable {host : Host} {world : World} {path : Path} {defect : Defect}
  {data : Toml.Table}

theorem ofBytes_eq_defect_iff {content : ByteArray} :
    ofBytes host path content = .ok (.error defect) ↔
      ∃ trouble, Trouble.ofContent? host content = some trouble ∧
        trouble.defect path.display = defect := by
  unfold ofBytes Trouble.ofContent?
  cases String.fromUTF8? content with
  | none => simp [Trouble.defect]
  | some text =>
      rcases read : host.readToml text with (detail | digits) | data
      · simp [read, Trouble.defect]
      · simp [read]
      · rcases taken : ofData host data with breakdown | found | settings
        · simp [read, taken]
        · simp [read, taken, Trouble.defect]
        · simp [read, taken]

/-- **The path of a file is only told**: what keeps the file from giving settings is a trouble with
what the path leads to. -/
theorem ofFile_eq_defect_iff :
    ofFile host world path = .ok (.error defect) ↔
      ∃ trouble, Trouble.ofFound? host (world.find path) = some trouble ∧
        trouble.defect path.display = defect := by
  unfold ofFile Trouble.ofFound?
  rcases world.find path with obstacle | ((_ | content) | _)
  · cases obstacle <;> simp [Trouble.defect]
  · simp [Trouble.defect]
  · exact ofBytes_eq_defect_iff
  · simp [Trouble.defect]

/-! ## What is told of a file -/

/-- **The words of a message about a file are those of its path and its detail**, and the name of a
settings file if the file is missing. -/
theorem Trouble.holdsWords_iff {trouble : Trouble} (path : String)
    (isFile : ∀ defect, trouble ≠ unsound defect) :
    HoldsWords (trouble.defect path).message ↔ trouble.IsHinted path := by
  cases trouble with
  | missing =>
      have meet : Meet "Missing droll.toml at: " path := .inl (by decide +kernel)
      have named : NamesFile "Missing droll.toml at: " := by decide +kernel
      have silent : ¬ SpeaksOfFinding "Missing droll.toml at: " := by decide +kernel
      have shown : (defect path missing).message = "Missing droll.toml at: " ++ path := rfl
      rw [HoldsWords, shown, namesFile_append_iff meet, speaksOfFinding_append_iff meet,
        or_iff_right silent]
      exact and_iff_right (.inl named)
  | unreadable =>
      have meet : Meet "Failed reading config file: " path := .inl (by decide +kernel)
      exact holdsWords_append_iff meet (by decide +kernel)
  | notUtf8 =>
      have meet : Meet "Config is not valid UTF-8: " path := .inl (by decide +kernel)
      exact holdsWords_append_iff meet (by decide +kernel)
  | notToml detail =>
      have first : Meet "Invalid TOML in " path := .inl (by decide +kernel)
      have second : Meet ("Invalid TOML in " ++ path) ": " := .inr (by decide +kernel)
      have third : Meet ("Invalid TOML in " ++ path ++ ": ") detail := by
        refine .inl ?_
        rw [String.toList_append, List.getLast?_append_of_ne_nil _ (by decide)]
        rfl
      have plain : ¬ NamesFile "Invalid TOML in " ∧ ¬ SpeaksOfFinding "Invalid TOML in " := by
        decide +kernel
      have colon : ¬ NamesFile ": " ∧ ¬ SpeaksOfFinding ": " := by decide +kernel
      have shown : (defect path (notToml detail)).message =
          "Invalid TOML in " ++ path ++ ": " ++ detail := rfl
      rw [HoldsWords, shown, namesFile_append_iff third, namesFile_append_iff second,
        namesFile_append_iff first, speaksOfFinding_append_iff third,
        speaksOfFinding_append_iff second, speaksOfFinding_append_iff first]
      simp only [plain, colon, false_or, or_false, IsHinted]
  | unsound defect => exact absurd rfl (isFile defect)

/-! ## What is told of a table -/

/-- A number is written with digits and a minus only. -/
theorem isDigit_of_mem_toString {version : Int} {c : Char}
    (member : c ∈ (toString version).toList) :
    c = '-' ∨ Text.isDigit c = true := by
  cases version with
  | ofNat value =>
      rw [Text.toList_toString_ofNat] at member
      exact .inr (Text.isDigit_of_mem_toDigits member)
  | negSucc below =>
      rw [Text.toList_toString_negSucc] at member
      exact (List.mem_cons.mp member).imp_right Text.isDigit_of_mem_toDigits

/-- One letter of the name of a settings file is nowhere in the message about a version. -/
theorem not_namesFile_unsupportedVersion (version : Int) :
    ¬ NamesFile (Defect.unsupportedVersion version).message := by
  intro named
  have letter : 'l' ∈ (Defect.unsupportedVersion version).message.toList :=
    named.subset (by decide)
  have shown : (Defect.unsupportedVersion version).message =
      "Unsupported config version: " ++ toString version ++ " (expected 1)." := rfl
  rw [shown, String.toList_append, String.toList_append, List.mem_append, List.mem_append] at letter
  rcases letter with (front | digit) | back
  · exact absurd front (by decide +kernel)
  · rcases isDigit_of_mem_toString digit with minus | digit
    · cases minus
    · cases digit
  · exact absurd back (by decide +kernel)

theorem not_holdsWords_of_mem_versionDefects (member : defect ∈ versionDefects data) :
    ¬ HoldsWords defect.message := by
  unfold versionDefects at member
  split at member
  · obtain rfl := List.mem_singleton.mp member
    decide +kernel
  · rename_i version found
    split at member
    · cases member
    · obtain rfl := List.mem_singleton.mp member
      exact fun words => not_namesFile_unsupportedVersion version words.1
  · obtain rfl := List.mem_singleton.mp member
    decide +kernel

theorem not_holdsWords_of_mem_tableDefects {name : String} (known : name ∈ tableNames)
    (member : defect ∈ tableDefects data name) : ¬ HoldsWords defect.message := by
  have every : ∀ name ∈ tableNames, ¬ HoldsWords (Defect.notTable name).message := by
    decide +kernel
  rcases tableDefects_eq data name with none | some
  · rw [none] at member
    cases member
  · rw [some] at member
    obtain rfl := List.mem_singleton.mp member
    exact every name known

theorem not_holdsWords_of_mem_shapeDefects {key : Key} (member : defect ∈ shapeDefects data key) :
    ¬ HoldsWords defect.message := by
  unfold shapeDefects at member
  split at member
  · cases member
  · split at member
    · cases member
    · obtain rfl := List.mem_singleton.mp member
      cases key <;> decide +kernel

theorem toLower_of_isDigit {c : Char} (digit : Text.isDigit c = true) : c.toLower = c := by
  rw [Text.isDigit, Bool.and_eq_true, decide_eq_true_eq, decide_eq_true_eq] at digit
  refine dif_neg fun letter => ?_
  have early : 'A' ≤ '9' := Char.le_trans letter.1 digit.2
  exact absurd early (by decide)

/-- One letter of the word for finding is not in the message about a nesting limit that is too
great, from the limit on. -/
theorem not_holdsWords_maxDepthTooLarge (greatest : Nat) :
    ¬ HoldsWords (Defect.maxDepthTooLarge greatest).message := by
  have meet : Meet "Invalid config: parser.max_depth must be <= "
      (toString greatest ++ " (bounded by the interpreter recursion limit).") :=
    .inl (by decide +kernel)
  have shown : (Defect.maxDepthTooLarge greatest).message =
      "Invalid config: parser.max_depth must be <= " ++
        (toString greatest ++ " (bounded by the interpreter recursion limit).") := by
    rw [← String.append_assoc]
    exact String.append_assoc
  rw [shown, holdsWords_append_iff meet (by decide +kernel)]
  rintro ⟨-, spoken⟩
  have letter : 'f' ∈ (toString greatest ++
      " (bounded by the interpreter recursion limit).").toList.map Char.toLower :=
    spoken.subset (by decide)
  rw [String.toList_append, List.map_append, List.mem_append] at letter
  rcases letter with front | back
  · obtain ⟨c, member, lower⟩ := List.mem_map.mp front
    rcases @isDigit_of_mem_toString greatest c member with rfl | digit
    · cases lower
    · rw [toLower_of_isDigit digit] at lower
      rw [lower] at digit
      cases digit
  · exact absurd back (by decide +kernel)

theorem not_holdsWords_of_mem_rangeDefects {key : Key}
    (member : defect ∈ rangeDefects host.greatestDepth data key) :
    ¬ HoldsWords defect.message := by
  have every : ∀ defect ∈ Defect.maxDepthTooLarge host.greatestDepth ::
      [.maxDiceTooSmall, .maxDepthTooSmall, .unknownFormat], ¬ HoldsWords defect.message :=
    List.forall_mem_cons.mpr ⟨not_holdsWords_maxDepthTooLarge _, by decide +kernel⟩
  -- whichever bound a setting breaks, it is one of these that is told
  refine every defect ?_
  unfold rangeDefects at member
  repeat' split at member
  all_goals simp_all

/-- **What is wrong with a table is told without the hint.** -/
theorem hint?_of_mem_defects (member : defect ∈ defects host.greatestDepth data) :
    (Fault.settings defect).hint? = none := by
  refine (settingsHint?_eq defect.message).trans (if_neg ?_)
  simp only [defects, List.mem_append, List.mem_flatMap] at member
  rcases member with ((inVersion | ⟨name, known, inTable⟩) | ⟨key, _, inShape⟩) | ⟨key, _, inRange⟩
  · exact not_holdsWords_of_mem_versionDefects inVersion
  · exact not_holdsWords_of_mem_tableDefects known inTable
  · exact not_holdsWords_of_mem_shapeDefects inShape
  · exact not_holdsWords_of_mem_rangeDefects inRange

/-! ## The hint -/

namespace Trouble

variable {found : Except Obstacle Entry} {trouble : Trouble}

/-- A trouble with a table is something that is wrong with it. -/
theorem exists_mem_defects (told : ofFound? host found = some (unsound defect)) :
    ∃ data, defect ∈ defects host.greatestDepth data := by
  obtain ⟨data, taken⟩ : ∃ data, ofData host data = .ok (.error defect) := by
    unfold ofFound? ofContent? at told
    repeat' split at told
    all_goals cases told
    -- what is left is the text that was read as a table
    rename_i data _ _ taken
    exact ⟨data, taken⟩
  exact ⟨data, List.mem_of_head? (ofTable_eq_error_iff.mp (ofData_eq_defect_iff.mp taken).1)⟩

/-- **The words of the path and of the detail decide on the hint** to what is told of a file. -/
theorem hint?_eq (told : ofFound? host found = some trouble) (path : String) :
    (Fault.settings (trouble.defect path)).hint? =
      if trouble.IsHinted path then some fileHint else none := by
  by_cases isTable : ∃ defect, trouble = unsound defect
  · obtain ⟨defect, rfl⟩ := isTable
    obtain ⟨data, member⟩ := exists_mem_defects told
    exact (hint?_of_mem_defects member).trans (if_neg id).symm
  · have isFile : ∀ defect, trouble ≠ unsound defect := not_exists.mp isTable
    refine (settingsHint?_eq (trouble.defect path).message).trans ?_
    simp only [holdsWords_iff path isFile]

/-- Paths that hold the same of the two words give the hint alike. -/
theorem isHinted_congr {path other : String} (named : NamesFile path ↔ NamesFile other)
    (spoken : SpeaksOfFinding path ↔ SpeaksOfFinding other) :
    trouble.IsHinted path ↔ trouble.IsHinted other := by
  cases trouble <;> simp only [IsHinted, HoldsWords, named, spoken]

end Trouble

/-! ## The main statement -/

/-- **The hint about settings follows two words of the path.**

Two settings files are chosen, each in its own way and its own tree, and what their paths lead to is
the same: the same content, or the same reason not to be read. No settings can be loaded from
either, and a defect is told of each. Then it is the same trouble at two paths, and each of the
defects is told with the hint exactly if the path and the detail, if there is one, hold the words
that the trouble asks for. So if the two paths hold the same of the two words, both defects are told
with the hint or neither is.

A search that finds no file is told with the hint in any case. -/
theorem settings_hint_follows_words {host : Host} {world world' : World}
    {root config root' config' : Option Path} {path path' : Path} {defect defect' : Defect}
    (chosen : chosenFile world root config = .ok (some path))
    (chosen' : chosenFile world' root' config' = .ok (some path'))
    (same : world.find path = world'.find path')
    (fails : load host world root config = .ok (.error defect))
    (fails' : load host world' root' config' = .ok (.error defect')) :
    let hint? (defect : Defect) := (Fault.settings defect).hint?
    (∃ trouble, Trouble.ofFound? host (world.find path) = some trouble ∧
      defect = trouble.defect path.display ∧ defect' = trouble.defect path'.display ∧
      hint? defect = (if trouble.IsHinted path.display then some fileHint else none) ∧
      hint? defect' = if trouble.IsHinted path'.display then some fileHint else none) ∧
    ((NamesFile path.display ↔ NamesFile path'.display) →
      (SpeaksOfFinding path.display ↔ SpeaksOfFinding path'.display) →
        hint? defect = hint? defect') ∧
    ∀ empty : World, chosenFile empty none none = .ok none →
      load host empty none none = .ok (.error .notFound) ∧ hint? .notFound = some fileHint := by
  intro hint?
  rw [load_eq, chosen] at fails
  rw [load_eq, chosen'] at fails'
  obtain ⟨trouble, told, rfl⟩ := ofFile_eq_defect_iff.mp fails
  obtain ⟨trouble', told', rfl⟩ := ofFile_eq_defect_iff.mp fails'
  obtain rfl : trouble = trouble' := by
    rw [← same, told] at told'
    exact Option.some.inj told'
  have hinted := trouble.hint?_eq told path.display
  have hinted' := trouble.hint?_eq told path'.display
  refine ⟨⟨trouble, told, rfl, rfl, hinted, hinted'⟩, fun named spoken => ?_, fun empty none => ?_⟩
  · simp only [hint?, hinted, hinted', trouble.isHinted_congr named spoken]
  · have words : HoldsWords Defect.notFound.message := by decide +kernel
    refine ⟨by rw [load_eq, none], ?_⟩
    exact (settingsHint?_eq Defect.notFound.message).trans (if_pos words)

/-- A world with a file of the same content in two directories below its root. The content is no
text. -/
def twinFiles (first second : String) : World :=
  ⟨.ofFiles [([first, fileName], ⟨#[255]⟩), ([second, fileName], ⟨#[255]⟩)] [], []⟩

/-- Two paths with the word for finding: one file is given, the other is in a directory that is. The
working directory itself has no settings. -/
theorem settings_hint_of_two_findings :
    let world := twinFiles "FINDINGS" "unfindable"
    let first : Path := .absolute ["FINDINGS", fileName]
    let directory : Path := ⟨.relative, ["unfindable"]⟩
    load plainHost world none (some first) = .ok (.error (.notUtf8 "/FINDINGS/droll.toml")) ∧
      load plainHost world (some directory) none =
        .ok (.error (.notUtf8 "unfindable/droll.toml")) ∧
      (Fault.settings (.notUtf8 "/FINDINGS/droll.toml")).hint? =
        (Fault.settings (.notUtf8 "unfindable/droll.toml")).hint? ∧
      load plainHost world none none = .ok (.error .notFound) ∧
      (Fault.settings .notFound).hint? = some fileHint := by
  intro world first directory
  have fails : load plainHost world none (some first) =
      .ok (.error (.notUtf8 "/FINDINGS/droll.toml")) := by cbv
  have fails' : load plainHost world (some directory) none =
      .ok (.error (.notUtf8 "unfindable/droll.toml")) := by cbv
  have same : world.find first = world.find (directory.child fileName) := by
    have found : world.find first = .ok (.file (some ⟨#[255]⟩)) := by cbv
    have found' : world.find (directory.child fileName) = .ok (.file (some ⟨#[255]⟩)) := by cbv
    rw [found, found']
  have absent : chosenFile world none none = .ok none := by cbv
  obtain ⟨-, alike, search⟩ := settings_hint_follows_words rfl rfl same fails fails'
  exact ⟨fails, fails', alike (by decide +kernel) (by decide +kernel), search world absent⟩

/-- **The spelling of a path can give the hint.** Two files hold the same, which is no text. One of
them is in a directory whose name holds the word for finding, and only there the hint is given. -/
theorem hint_of_findings :
    let world := twinFiles "games" "findings"
    let first : Path := .absolute ["games", fileName]
    let second : Path := .absolute ["findings", fileName]
    world.find first = .ok (.file (some ⟨#[255]⟩)) ∧
      world.find second = .ok (.file (some ⟨#[255]⟩)) ∧
      load plainHost world none (some first) = .ok (.error (.notUtf8 "/games/droll.toml")) ∧
      load plainHost world none (some second) = .ok (.error (.notUtf8 "/findings/droll.toml")) ∧
      (Fault.settings (.notUtf8 "/games/droll.toml")).hint? = none ∧
      (Fault.settings (.notUtf8 "/findings/droll.toml")).hint? = some fileHint := by
  refine ⟨by cbv, by cbv, by cbv, by cbv, ?_, ?_⟩
  · exact (settingsHint?_eq _).trans (if_neg (by decide +kernel))
  · exact (settingsHint?_eq _).trans (if_pos (by decide +kernel))

end Settings

end DiceNotation
