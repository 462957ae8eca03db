import DiceNotation.Proofs.Settings.Defects
import DiceNotation.Settings.Discovery
import DiceNotation.Toml.Reader
import Mathlib

/-!
# Loading settings

Settings are loaded from the file that is given, else from the directory that is given, else from
the nearest directory above the working directory that holds a settings file (`chosenFile`). If the
chosen file holds a table (`HoldsTable`), what is loaded depends on the table alone
(`load_of_holdsTable`), and of the table only on what `Reflects` and `defects` look at.

A defect is told in a message. There is one defect whose message cannot be written, an unsupported
version with too many digits. Then the loading breaks down, and nothing is told
(`ofData_eq_error_iff`). The main statement is `load_takes_given_settings`;
`load_unwritable_version` shows that such a version can come up.
-/

set_option autoImplicit false

namespace DiceNotation.Settings

/-! ## The file -/

/-- The file that settings are loaded from. There may be none if neither a file nor a directory is
given. -/
def chosenFile (world : World) (root config : Option Path) : Except Refusal (Option Path) :=
  match config, root with
  | some path, _ => .ok (some path)
  | none, some root => .ok (some (root.child fileName))
  | none, none =>
    (findRoot world (.absolute world.workingDirectory)).map
      (Option.map fun place => .absolute (place ++ [fileName]))

/-- A path leads to a file whose text is read as a table. -/
def HoldsTable (host : Host) (world : World) (path : Path) (data : Toml.Table) : Prop :=
  ∃ content text,
    world.find path = .ok (.file (some content)) ∧ String.fromUTF8? content = some text ∧
    host.readToml text = .ok data

variable {host : Host} {world : World} {root config : Option Path} {path : Path}
  {data : Toml.Table}

/-- The settings of the working directory are those of the file that is chosen if none is given. -/
theorem ofWorkingDirectory_eq (host : Host) (world : World) :
    ofWorkingDirectory host world =
      match chosenFile world none none with
      | .error refusal => .error (.refused refusal)
      | .ok none => .ok none
      | .ok (some path) => (ofFile host world path).map some := by
  unfold ofWorkingDirectory chosenFile
  rcases findRoot world (.absolute world.workingDirectory) with refusal | _ | place <;> rfl

/-- Loading settings is choosing a file and reading it. -/
theorem load_eq (host : Host) (world : World) (root config : Option Path) :
    load host world root config =
      match chosenFile world root config with
      | .error refusal => .error (.refused refusal)
      | .ok none => .ok (.error .notFound)
      | .ok (some path) => ofFile host world path := by
  cases config with
  | some path => rfl
  | none =>
      cases root with
      | some root => rfl
      | none =>
          simp only [load, ofWorkingDirectory_eq]
          rcases chosenFile world none none with refusal | _ | path
          · rfl
          · rfl
          · simp only
            cases ofFile host world path <;> rfl

theorem ofFile_of_holdsTable (holds : HoldsTable host world path data) :
    ofFile host world path = ofData host data := by
  obtain ⟨content, text, found, decoded, read⟩ := holds
  simp only [ofFile, found, ofBytes, decoded, read]

/-- **What is loaded depends on the table that the chosen file holds.** -/
theorem load_of_holdsTable (chosen : chosenFile world root config = .ok (some path))
    (holds : HoldsTable host world path data) :
    load host world root config = ofData host data := by
  rw [load_eq, chosen]
  exact ofFile_of_holdsTable holds

/-! ## The table -/

/-- What is wrong with a table is told with a number in two cases, an unsupported version and a
nesting limit that is too great. -/
theorem mem_defects_cases {greatestDepth : Nat} {defect : Defect}
    (member : defect ∈ defects greatestDepth data) :
    defect.numbers = [] ∨
      (∃ version, defect = .unsupportedVersion version ∧
        data.get? "version" = some (.integer version)) ∨
      defect = .maxDepthTooLarge greatestDepth := by
  simp only [defects, List.mem_append, List.mem_flatMap] at member
  rcases member with ((here | ⟨name, _, inTable⟩) | ⟨key, _, inShape⟩) | ⟨key, _, inRange⟩
  · unfold versionDefects at here
    split at here
    · exact .inl (congrArg Defect.numbers (List.mem_singleton.mp here))
    · rename_i version found
      split at here
      · cases here
      · exact .inr (.inl ⟨version, List.mem_singleton.mp here, found⟩)
    · exact .inl (congrArg Defect.numbers (List.mem_singleton.mp here))
  · rcases tableDefects_eq data name with none | some
    · rw [none] at inTable
      cases inTable
    · rw [some] at inTable
      exact .inl (congrArg Defect.numbers (List.mem_singleton.mp inTable))
  · unfold shapeDefects at inShape
    split at inShape
    · cases inShape
    · split at inShape
      · cases inShape
      · exact .inl (congrArg Defect.numbers (List.mem_singleton.mp inShape))
  · unfold rangeDefects at inRange
    repeat' split at inRange
    all_goals first
      | exact absurd inRange List.not_mem_nil
      | exact .inl (congrArg Defect.numbers (List.mem_singleton.mp inRange))
      | exact .inr (.inr (List.mem_singleton.mp inRange))

/-- Only an unsupported version can be too long to be told. -/
theorem exists_version_of_mem_defects {defect : Defect}
    (member : defect ∈ defects host.greatestDepth data) (long : defect.isWritable = false) :
    ∃ version, data.get? "version" = some (.integer version) ∧
      Text.isWritable version = false := by
  rcases mem_defects_cases member with none | ⟨version, rfl, given⟩ | rfl
  · simp [Defect.isWritable, none] at long
  · exact ⟨version, given, by simpa [Defect.isWritable, Defect.numbers] using long⟩
  · simp [Defect.isWritable, Defect.numbers, host.isWritable_greatestDepth] at long

theorem ofData_eq_ok_iff {settings : Settings} :
    ofData host data = .ok (.ok settings) ↔ ofTable host.greatestDepth data = .ok settings := by
  unfold ofData
  cases ofTable host.greatestDepth data with
  | ok taken => simp
  | error defect => cases written : defect.isWritable <;> simp [written]

theorem ofData_eq_defect_iff {defect : Defect} :
    ofData host data = .ok (.error defect) ↔
      ofTable host.greatestDepth data = .error defect ∧ defect.isWritable := by
  unfold ofData
  cases ofTable host.greatestDepth data with
  | ok taken => simp
  | error told =>
      cases written : told.isWritable
      · simp only [written, Bool.false_eq_true, if_false, reduceCtorEq, Except.error.injEq,
          false_iff, not_and, Bool.not_eq_true]
        rintro rfl
        exact written
      · simp only [written, if_true, Except.ok.injEq, Except.error.injEq, iff_self_and]
        rintro rfl
        exact written

/-- **Loading breaks down exactly at a version that is too long to be told.** Such a version is
never the supported one. -/
theorem ofData_eq_error_iff {breakdown : Breakdown} :
    ofData host data = .error breakdown ↔ breakdown = .unwritable ∧
      ∃ version, data.get? "version" = some (.integer version) ∧
        Text.isWritable version = false := by
  have broken : ofData host data = .error breakdown ↔ breakdown = .unwritable ∧
      ∃ defect, ofTable host.greatestDepth data = .error defect ∧ defect.isWritable = false := by
    unfold ofData
    cases ofTable host.greatestDepth data with
    | ok taken => simp
    | error told =>
        cases written : told.isWritable with
        | true => simp [written]
        | false => simpa [written] using ⟨Eq.symm, Eq.symm⟩
  rw [broken]
  refine and_congr_right fun _ => ⟨?_, ?_⟩
  · rintro ⟨defect, refused, unwritable⟩
    have first := ofTable_eq_error_iff.mp refused
    exact exists_version_of_mem_defects (List.mem_of_head? first) unwritable
  · rintro ⟨version, given, long⟩
    have other : version ≠ 1 := by
      rintro rfl
      have short : Text.isWritable 1 = true := by decide +kernel
      rw [short] at long
      cases long
    refine ⟨.unsupportedVersion version, ofTable_eq_error_iff.mpr ?_, ?_⟩
    · simp [defects, versionDefects, given, other]
    · simp [Defect.isWritable, Defect.numbers, long]

/-! ## What a file gives -/

/-- Settings are taken from a file exactly if it holds a table that gives them. -/
theorem ofFile_eq_ok_iff {settings : Settings} :
    ofFile host world path = .ok (.ok settings) ↔
      ∃ data, HoldsTable host world path data ∧ ofTable host.greatestDepth data = .ok settings := by
  constructor
  · intro taken
    unfold ofFile at taken
    split at taken
    · cases taken
    · cases taken
    · cases taken
    · cases taken
    · cases taken
    · rename_i content found
      unfold ofBytes at taken
      split at taken
      · cases taken
      · rename_i text decoded
        split at taken
        · cases taken
        · cases taken
        · rename_i data read
          exact ⟨data, ⟨content, text, found, decoded, read⟩, ofData_eq_ok_iff.mp taken⟩
  · rintro ⟨data, holds, taken⟩
    rw [ofFile_of_holdsTable holds, ofData_eq_ok_iff, taken]

/-- **Reading a file breaks down exactly if the table that it holds does**, unless its path or a
number in it keeps it from being read. -/
theorem ofFile_eq_error_iff {breakdown : Breakdown}
    (plain : world.find path ≠ .error .nullCharacter)
    (reads : ∀ text digits, host.readToml text ≠ .error (.numeralTooLong digits)) :
    ofFile host world path = .error breakdown ↔
      ∃ data, HoldsTable host world path data ∧ ofData host data = .error breakdown := by
  constructor
  · intro broken
    unfold ofFile at broken
    split at broken
    · rename_i null
      exact absurd null plain
    · cases broken
    · cases broken
    · cases broken
    · cases broken
    · rename_i content found
      unfold ofBytes at broken
      split at broken
      · cases broken
      · rename_i text decoded
        split at broken
        · cases broken
        · rename_i digits long
          exact absurd long (reads text digits)
        · rename_i data read
          exact ⟨data, ⟨content, text, found, decoded, read⟩, broken⟩
  · rintro ⟨data, holds, broken⟩
    rw [ofFile_of_holdsTable holds, broken]

/-! ## Settings in force -/

/-- Settings that can be in force on a host: those of a file, or the standard ones. -/
def IsUsable (host : Host) (settings : Settings) : Prop :=
  settings = .standard ∨ ∃ world root config, load host world root config = .ok (.ok settings)

/-- Every standard value is one that a table may give. -/
theorem allows_standard {key : Key} {value : Toml.Value} (set : standard.value? key = some value) :
    key.Allows host.greatestDepth value := by
  have room := host.standard_le_greatestDepth
  cases key with
  | seed | maxDice => cases set
  | maxDepth =>
      cases set
      exact ⟨by decide, Int.ofNat_le.mpr room⟩
  | format =>
      cases set
      exact .inl rfl
  | showRolls | showTree | serviceEnabled =>
      cases set
      trivial

namespace IsUsable

variable {settings : Settings}

/-- Settings that are found from the working directory, or the standard ones where none are. -/
theorem of_found (found : (ofWorkingDirectory host world).map (·.getD (.ok .standard)) =
    .ok (.ok settings)) : IsUsable host settings := by
  rcases here : ofWorkingDirectory host world with breakdown | _ | loaded
  · rw [here] at found
    cases found
  · rw [here] at found
    cases found
    exact .inl rfl
  · rw [here] at found
    cases found
    refine .inr ⟨world, none, none, ?_⟩
    rw [load, here]
    rfl

/-- **Every value in force is one that a table may give.** -/
theorem allows (usable : IsUsable host settings) {key : Key} {value : Toml.Value}
    (set : settings.value? key = some value) : key.Allows host.greatestDepth value := by
  rcases usable with rfl | ⟨world, root, config, loaded⟩
  · exact allows_standard set
  · rw [load_eq] at loaded
    split at loaded
    · cases loaded
    · cases loaded
    · obtain ⟨data, _, taken⟩ := ofFile_eq_ok_iff.mp loaded
      obtain ⟨sound, reflects⟩ := ofTable_eq_ok_iff.mp taken
      rw [reflects key] at set
      cases given : given? data key with
      | none =>
          rw [given] at set
          exact allows_standard set
      | some other =>
          rw [given] at set
          cases set
          exact sound.settings key _ given

/-- A limit of dice in force is at least one. -/
theorem one_le_maxDice (usable : IsUsable host settings) :
    ∀ limit ∈ settings.maxDice, 1 ≤ limit := by
  intro limit inForce
  have set : settings.value? .maxDice = some (.integer limit) :=
    congrArg (Option.map Toml.Value.integer) inForce
  exact usable.allows set

/-- A nesting limit in force is one that a reader accepts. -/
theorem ofInt?_maxDepth (usable : IsUsable host settings) :
    DepthLimit.ofInt? host.greatestDepth settings.maxDepth.levels = some settings.maxDepth := by
  have set : settings.value? .maxDepth = some (.integer settings.maxDepth.levels) := rfl
  exact DepthLimit.ofInt?_levels (Int.ofNat_le.mp (usable.allows set).2)

end IsUsable

/-! ## The main statement -/

/-- **Loading takes the settings that a table gives.**

The chosen file holds a table. Settings are loaded exactly if the table is sound, and then they have
the values that the table gives and the standard values elsewhere. They are loaded from every table
that is alike, whatever else it holds. A defect is told exactly if it is the first that the table
has and can be written. The only breakdown is that of a version that cannot be written. -/
theorem load_takes_given_settings (chosen : chosenFile world root config = .ok (some path))
    (holds : HoldsTable host world path data) :
    let loaded := load host world root config
    ((∃ settings, loaded = .ok (.ok settings)) ↔ IsSound host.greatestDepth data) ∧
      (∀ settings, loaded = .ok (.ok settings) ↔
        IsSound host.greatestDepth data ∧ Reflects data settings) ∧
      (∀ (world' : World) (path' : Path) (other : Toml.Table),
        HoldsTable host world' path' other → Alike data other →
          load host world' none (some path') = loaded) ∧
      (∀ defect, loaded = .ok (.error defect) ↔
        (defects host.greatestDepth data).head? = some defect ∧ defect.isWritable) ∧
      ∀ breakdown, loaded = .error breakdown ↔ breakdown = .unwritable ∧
        ∃ version, data.get? "version" = some (.integer version) ∧
          Text.isWritable version = false := by
  intro loaded
  have same : loaded = ofData host data := load_of_holdsTable chosen holds
  have taken (settings : Settings) :
      loaded = .ok (.ok settings) ↔ IsSound host.greatestDepth data ∧ Reflects data settings := by
    rw [same, ofData_eq_ok_iff, ofTable_eq_ok_iff]
  refine ⟨⟨?_, fun sound => ?_⟩, taken, fun world' path' other holds' alike => ?_,
    fun defect => ?_, fun breakdown => ?_⟩
  · rintro ⟨settings, reads⟩
    exact ((taken settings).mp reads).1
  · have none := defects_eq_nil_iff.mpr sound
    cases read : ofTable host.greatestDepth data with
    | ok settings => exact ⟨settings, by rw [same, ofData_eq_ok_iff, read]⟩
    | error defect =>
        have first := ofTable_eq_error_iff.mp read
        rw [none] at first
        cases first
  · have there : load host world' none (some path') = ofData host other :=
      load_of_holdsTable rfl holds'
    rw [there, same, ofData, alike.ofTable_eq, ← ofData]
  · rw [same, ofData_eq_defect_iff, ofTable_eq_error_iff]
  · rw [same, ofData_eq_error_iff]

/-! ## Two files -/

/-- A world whose working directory holds a settings file with some content. -/
def worldOf (content : ByteArray) : World :=
  ⟨.ofFiles [(["games", fileName], content)] [], ["games"]⟩

theorem chosenFile_worldOf (content : ByteArray) :
    chosenFile (worldOf content) none none = .ok (some (.absolute ["games", fileName])) := by
  cbv

/-- A file that holds a text holds the table that the text is read as. -/
theorem holdsTable_worldOf {text : String} (read : host.readToml text = .ok data) :
    HoldsTable host (worldOf text.toUTF8) (.absolute ["games", fileName]) data := by
  have found : (worldOf text.toUTF8).find (.absolute ["games", fileName]) =
      .ok (.file (some text.toUTF8)) := by cbv
  have decoded : String.fromUTF8? text.toUTF8 = some text := dif_pos text.isValidUTF8
  exact ⟨text.toUTF8, text, found, decoded, read⟩

/-- A host that reads every text as one table. -/
def hostOf (data : Toml.Table) : Host :=
  .reading fun _ => .ok data

/-- The host whose reading of TOML is the one of the library. -/
def plainHost : Host :=
  .reading Toml.parse

/-- A limit in hexadecimal is a limit, and a table that is not known, under a name that is, does not
matter. -/
theorem load_takes_given_settings_of_hex_limit :
    let text := "version = 1\n[parser]\nmax_depth = 0x190\n[roll.seeds]\n"
    let data : Toml.Table := [("version", .integer 1),
      ("parser", .table [("max_depth", .integer 400)]), ("roll", .table [("seeds", .table [])])]
    chosenFile (worldOf text.toUTF8) none none = .ok (some (.absolute ["games", fileName])) ∧
      HoldsTable plainHost (worldOf text.toUTF8) (.absolute ["games", fileName]) data ∧
      load plainHost (worldOf text.toUTF8) none none =
        .ok (.ok { maxDepth := ⟨400, by decide⟩ }) := by
  intro text data
  have chosen := chosenFile_worldOf text.toUTF8
  have read : plainHost.readToml text = .ok data := by cbv
  have holds := holdsTable_worldOf read
  refine ⟨chosen, holds, ?_⟩
  refine ((load_takes_given_settings chosen holds).2.1 _).mpr ⟨?_, fun key => ?_⟩
  · exact defects_eq_nil_iff.mp rfl
  · cases key <;> rfl

/-- A table whose version has more than 4300 digits. -/
def longVersion : Toml.Table :=
  [("version", .integer (16 ^ 3600))]

/-- The table as a text: numbers in hexadecimal may have any number of digits. -/
def longVersionText : String :=
  "version = 0x1" ++ String.ofList (List.replicate 3600 '0')

theorem defects_longVersion (greatestDepth : Nat) :
    (defects greatestDepth longVersion).head? = some (.unsupportedVersion (16 ^ 3600)) := by
  have first (version : Int) (other : version ≠ 1) :
      (defects greatestDepth [("version", .integer version)]).head? =
        some (.unsupportedVersion version) := by
    simp [defects, versionDefects, Toml.Table.get?, other]
  exact first (16 ^ 3600) (by decide +kernel)

theorem ofData_longVersion : ofData host longVersion = .error .unwritable :=
  ofData_eq_error_iff.mpr ⟨rfl, 16 ^ 3600, rfl, by decide +kernel⟩

/-- A version of more than 4300 digits is not supported, which is the first defect of its table, but
this is not told. -/
theorem load_unwritable_version :
    let host := hostOf longVersion
    chosenFile (worldOf longVersionText.toUTF8) none none =
        .ok (some (.absolute ["games", fileName])) ∧
      HoldsTable host (worldOf longVersionText.toUTF8) (.absolute ["games", fileName])
        longVersion ∧
      (defects host.greatestDepth longVersion).head? =
        some (.unsupportedVersion (16 ^ 3600)) ∧
      load host (worldOf longVersionText.toUTF8) none none ≠
        .ok (.error (.unsupportedVersion (16 ^ 3600))) := by
  intro host
  have chosen := chosenFile_worldOf longVersionText.toUTF8
  have holds : HoldsTable host (worldOf longVersionText.toUTF8)
      (.absolute ["games", fileName]) longVersion := holdsTable_worldOf rfl
  refine ⟨chosen, holds, defects_longVersion _, ?_⟩
  rw [load_of_holdsTable chosen holds, ofData_longVersion]
  exact nofun

end DiceNotation.Settings
