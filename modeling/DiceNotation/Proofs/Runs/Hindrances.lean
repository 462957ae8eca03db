import DiceNotation.Program
import DiceNotation.Proofs.Settings.Search

/-!
# What keeps a run from its settings

Every command first looks for its settings. The options choose a file (`Program.settingsFile`): one
that is given, that of a directory that is given, or the nearest one above the working directory. If
there is none, the standard settings are in force, and otherwise those of the file
(`Program.settingsFor_eq_ofFile`).

A run may break down at this point. In ordinary surroundings there are two hindrances and no others
(`Program.settingsFor_eq_error_iff`): a search that the system refuses, because the path of its
first candidate is too long or access to it is denied, and a version that is too long to be told.
Ordinary are surroundings in which the working directory exists, no path holds the null character,
and a text is read as TOML or is malformed.
-/

set_option autoImplicit false

namespace DiceNotation

open CommandLine (Options)

/-- Surroundings in which the working directory exists, no path that is given holds the null
character, and a text is read as TOML or is malformed. -/
structure Surroundings.Ordinary (surroundings : Surroundings) (options : Options) : Prop where
  stands : surroundings.world.Stands
  root : ∀ text ∈ options.root, (Path.ofString text).holdsNull = false
  config : ∀ text ∈ options.config, (Path.ofString text).holdsNull = false
  reads : ∀ text digits, surroundings.host.readToml text ≠ .error (.numeralTooLong digits)

/-- Options that give neither a directory nor a file, so that the settings are searched for. A path
that is given empty counts as not given. -/
def CommandLine.Options.Searches (options : Options) : Prop :=
  options.root.filter (!·.isEmpty) = none ∧ options.config.filter (!·.isEmpty) = none

variable {surroundings : Surroundings} {world : World} {options : Options} {given : Option String}

namespace Program

/-- The file that the settings for some options are taken from, if there is one. -/
def settingsFile (world : World) (options : Options) : Except Refusal (Option Path) :=
  match pathOption world options.root, pathOption world options.config with
  | .error refusal, _ => .error refusal
  | .ok _, .error refusal => .error refusal
  | .ok root, .ok config => Settings.chosenFile world root config

/-- **The settings in force are those of the file that the options choose**, or the standard ones if
there is none. -/
theorem settingsFor_eq_ofFile (surroundings : Surroundings) (options : Options) :
    settingsFor surroundings options =
      match settingsFile surroundings.world options with
      | .error refusal => .error (.refused refusal)
      | .ok none => .ok (.ok .standard)
      | .ok (some path) => Settings.ofFile surroundings.host surroundings.world path := by
  simp only [settingsFor, settingsFile]
  cases pathOption surroundings.world options.root with
  | error refusal => rfl
  | ok root =>
      cases pathOption surroundings.world options.config with
      | error refusal => rfl
      | ok config =>
          cases root with
          | some root => cases config <;> rfl
          | none =>
              cases config with
              | some config => rfl
              | none =>
                  simp only [Settings.ofWorkingDirectory_eq]
                  rcases Settings.chosenFile surroundings.world none none with refusal | _ | path
                  · rfl
                  · rfl
                  · simp only
                    cases Settings.ofFile surroundings.host surroundings.world path <;> rfl

/-- Settings in force can be used. -/
theorem isUsable_of_settingsFor {settings : Settings}
    (loading : settingsFor surroundings options = .ok (.ok settings)) :
    Settings.IsUsable surroundings.host settings := by
  unfold settingsFor at loading
  simp only at loading
  split at loading
  · cases loading
  · cases loading
  · exact .of_found loading
  · exact .inr ⟨_, _, _, loading⟩

/-- A path that is given without the null character is a place in the tree. -/
theorem pathOption_cases (stands : world.Stands)
    (plain : ∀ text ∈ given, (Path.ofString text).holdsNull = false) :
    given.filter (!·.isEmpty) = none ∧ pathOption world given = .ok none ∨
      ∃ place, given.filter (!·.isEmpty) ≠ none ∧
        pathOption world given = .ok (some (.absolute place)) ∧
          (Path.absolute place).holdsNull = false := by
  unfold pathOption
  cases kept : given.filter (!·.isEmpty) with
  | none => exact .inl ⟨rfl, rfl⟩
  | some text =>
      have plain := plain text (Option.eq_some_of_filter_eq_some kept)
      refine .inr ⟨_, nofun, ?_, Path.holdsNull_resolve plain stands.plain⟩
      simp only [World.place, plain]
      rfl

/-- The place where the settings are searched for first, and why the system refuses to look there.
-/
def SearchRefused (surroundings : Surroundings) (options : Options) (obstacle : Obstacle) : Prop :=
  options.Searches ∧
    Settings.Refused surroundings.world (Settings.searchPlace surroundings.world) obstacle

/-- **In ordinary surroundings, options choose a file whose path can be followed**, unless the
settings are searched for and the search is refused. -/
theorem settingsFile_cases (ordinary : surroundings.Ordinary options) :
    (∃ obstacle, SearchRefused surroundings options obstacle ∧
        settingsFile surroundings.world options = .error
          ⟨.absolute (Settings.searchPlace surroundings.world ++ [Settings.fileName]), obstacle⟩) ∨
      ((∀ obstacle, ¬ SearchRefused surroundings options obstacle) ∧
        ∃ path?, settingsFile surroundings.world options = .ok path? ∧
          ∀ path ∈ path?, surroundings.world.find path ≠ .error .nullCharacter) := by
  rcases pathOption_cases ordinary.stands ordinary.config with
    ⟨noConfig, config⟩ | ⟨place, isConfig, config, plain⟩
  · rcases pathOption_cases ordinary.stands ordinary.root with
      ⟨noRoot, root⟩ | ⟨place, isRoot, root, plain⟩
    · have same : settingsFile surroundings.world options =
          Settings.chosenFile surroundings.world none none := by
        simp only [settingsFile, root, config]
      have searches : options.Searches := ⟨noRoot, noConfig⟩
      rw [same]
      rcases Settings.chosenFile_cases ordinary.stands with
        ⟨obstacle, refused, chosen⟩ | ⟨free, ⟨found, -, chosen⟩ | ⟨-, chosen⟩⟩
      · exact .inl ⟨obstacle, ⟨searches, refused⟩, chosen⟩
      · refine .inr ⟨fun obstacle refused => free obstacle refused.2, _, chosen, ?_⟩
        rintro path ⟨⟩
        exact Settings.find_ne_nullCharacter_of_chosenFile chosen
      · exact .inr ⟨fun obstacle refused => free obstacle refused.2, none, chosen, nofun⟩
    · refine .inr ⟨fun obstacle searched => isRoot searched.1.1,
        some ((Path.absolute place).child Settings.fileName), ?_, ?_⟩
      · simp only [settingsFile, root, config]
        rfl
      · rintro path ⟨⟩
        exact World.find_ne_nullCharacter (Settings.holdsNull_child plain)
  · refine .inr ⟨fun obstacle searched => isConfig searched.1.2, some (.absolute place), ?_, ?_⟩
    · -- the directory makes no difference, if only its path is a place
      obtain ⟨root?, root⟩ : ∃ root?,
          pathOption surroundings.world options.root = .ok root? := by
        rcases pathOption_cases ordinary.stands ordinary.root with ⟨_, root⟩ | ⟨_, _, root, _⟩
        · exact ⟨_, root⟩
        · exact ⟨_, root⟩
      simp only [settingsFile, root, config, Settings.chosenFile]
    · rintro path ⟨⟩
      exact World.find_ne_nullCharacter plain

end Program

/-- What keeps a run from its settings, with the breakdown in which the run ends. -/
inductive Surroundings.Hinders (surroundings : Surroundings) (options : Options) : Breakdown → Prop
  /-- The settings are searched for, and the system refuses to look at the first candidate. -/
  | search {obstacle : Obstacle} : Program.SearchRefused surroundings options obstacle →
      Hinders surroundings options (.refused
        ⟨.absolute (Settings.searchPlace surroundings.world ++ [Settings.fileName]), obstacle⟩)
  /-- The table of the file has a version that is too long to be told. -/
  | version {path : Path} {data : Toml.Table} {version : Int} :
      Program.settingsFile surroundings.world options = .ok (some path) →
      Settings.HoldsTable surroundings.host surroundings.world path data →
      data.get? "version" = some (.integer version) → Text.isWritable version = false →
      Hinders surroundings options .unwritable

/-- **In ordinary surroundings, a run is kept from its settings by a hindrance and by nothing
else.** -/
theorem Program.settingsFor_eq_error_iff (ordinary : surroundings.Ordinary options)
    {breakdown : Breakdown} :
    settingsFor surroundings options = .error breakdown ↔
      surroundings.Hinders options breakdown := by
  rw [settingsFor_eq_ofFile]
  rcases settingsFile_cases ordinary with
    ⟨obstacle, refused, file⟩ | ⟨free, path?, file, followed⟩
  · rw [file]
    constructor
    · rintro ⟨⟩
      exact .search refused
    · rintro (refused' | ⟨chosen⟩)
      · rw [refused.2.unique refused'.2]
      · rw [file] at chosen
        cases chosen
  · rw [file]
    cases path? with
    | none =>
        refine ⟨nofun, ?_⟩
        rintro (refused | ⟨chosen⟩)
        · exact absurd refused (free _)
        · rw [file] at chosen
          cases chosen
    | some path =>
        simp only [Settings.ofFile_eq_error_iff (followed path rfl) ordinary.reads,
          Settings.ofData_eq_error_iff]
        constructor
        · rintro ⟨data, holds, rfl, version, given, long⟩
          exact .version file holds given long
        · rintro (refused | ⟨chosen, holds, given, long⟩)
          · exact absurd refused (free _)
          · rw [file] at chosen
            cases chosen
            exact ⟨_, holds, rfl, _, given, long⟩

/-- A run that has its settings is not hindered on the way to them. -/
theorem Surroundings.not_hinders_of_loaded (ordinary : surroundings.Ordinary options)
    {loaded : Except Settings.Defect Settings}
    (loading : Program.settingsFor surroundings options = .ok loaded) (breakdown : Breakdown) :
    ¬ surroundings.Hinders options breakdown := by
  intro hindered
  rw [(Program.settingsFor_eq_error_iff ordinary).mpr hindered] at loading
  cases loading

/-- There is one hindrance at most. -/
theorem Surroundings.Hinders.unique {breakdown other : Breakdown}
    (ordinary : surroundings.Ordinary options) (hinders : surroundings.Hinders options breakdown)
    (hinders' : surroundings.Hinders options other) : breakdown = other := by
  rw [← Program.settingsFor_eq_error_iff ordinary] at hinders hinders'
  exact Except.error.inj (hinders.symm.trans hinders')

/-! ## One settings file -/

/-- Surroundings whose working directory holds a settings file with some text, which is read as some
table. -/
def Surroundings.ofTable (text : String) (data : Toml.Table) (transport : Option Transport) :
    Surroundings where
  world := Settings.worldOf text.toUTF8
  host := Settings.hostOf data
  fresh _ := ⟨#[], 0⟩
  transport := transport

section

variable {text : String} {data : Toml.Table} {transport : Option Transport}

theorem Surroundings.ordinary_ofTable
    (root : ∀ text ∈ options.root, (Path.ofString text).holdsNull = false)
    (config : ∀ text ∈ options.config, (Path.ofString text).holdsNull = false) :
    (Surroundings.ofTable text data transport).Ordinary options :=
  ⟨Settings.stands_worldOf _, root, config, fun _ _ refused => by cases refused⟩

theorem Surroundings.ordinary_ofTable_of_none (root : options.root = none)
    (config : options.config = none) :
    (Surroundings.ofTable text data transport).Ordinary options := by
  apply ordinary_ofTable
  · simp [root]
  · simp [config]

/-- Without options the file of the working directory is chosen. -/
theorem Program.settingsFile_worldOf (content : ByteArray) (root : options.root = none)
    (config : options.config = none) :
    settingsFile (Settings.worldOf content) options =
      .ok (some (.absolute ["games", Settings.fileName])) := by
  unfold settingsFile
  rw [root, config]
  exact Settings.chosenFile_worldOf _

theorem Program.settingsFor_ofTable
    (file : settingsFile (Settings.worldOf text.toUTF8) options =
      .ok (some (.absolute ["games", Settings.fileName]))) :
    settingsFor (.ofTable text data transport) options =
      Settings.ofData (Settings.hostOf data) data := by
  rw [settingsFor_eq_ofFile, Surroundings.ofTable, file]
  exact Settings.ofFile_of_holdsTable (Settings.holdsTable_worldOf rfl)

end

end DiceNotation
