import DiceNotation.Settings

/-!
# The defects of a table

Settings are taken from a table in a sequence of steps, and the first step that fails ends it. This
module says the same without steps. A table gives each setting a value or none (`given?`), and what
the table must be like is a property of these values (`IsSound`). The settings of a sound table have
the values that are given, and the standard ones elsewhere (`Reflects`).

Everything that is wrong with a table is listed: first the version, then the tables that are no
tables, then the settings of another type, and last the settings out of range (`defects`). A table
is sound exactly when the list is empty (`defects_eq_nil_iff`).

The steps are read as checks. A check tells the first of its defects, and has a result with some
property if it has none (`Tells`); checks in sequence tell the first of all of their defects
(`Tells.bind`). So the whole reading tells the first defect of the table, and has the settings of
the table if there is none (`tells_ofTable`).
-/

set_option autoImplicit false

namespace DiceNotation

/-! ## What a table gives -/

/-- How a form of the output is written in the settings. -/
def OutputFormat.written : OutputFormat → String
  | text => "text"
  | json => "json"

namespace Settings

/-- The tables that hold settings. -/
def tableNames : List String :=
  ["roll", "parser", "output", "mcp"]

/-- The settings by name, in the order in which they are read. -/
inductive Key
  | seed
  | maxDice
  | maxDepth
  | format
  | showRolls
  | showTree
  | serviceEnabled
deriving DecidableEq

/-- A value has a type. -/
def Shape.fits : Shape → Toml.Value → Bool
  | integer, .integer _ => true
  | boolean, .boolean _ => true
  | string, .string _ => true
  | _, _ => false

namespace Key

/-- All settings. -/
def all : List Key :=
  [seed, maxDice, maxDepth, format, showRolls, showTree, serviceEnabled]

theorem mem_all (key : Key) : key ∈ all := by
  cases key <;> decide

/-- The table of a setting. -/
def table : Key → String
  | seed => "roll"
  | maxDice => "roll"
  | maxDepth => "parser"
  | format => "output"
  | showRolls => "output"
  | showTree => "output"
  | serviceEnabled => "mcp"

/-- The name of a setting in its table. -/
def name : Key → String
  | seed => "seed"
  | maxDice => "max_dice"
  | maxDepth => "max_depth"
  | format => "format"
  | showRolls => "show_rolls"
  | showTree => "show_tree"
  | serviceEnabled => "enabled"

/-- The type that a setting must have. -/
def shape : Key → Shape
  | seed => .integer
  | maxDice => .integer
  | maxDepth => .integer
  | format => .string
  | showRolls => .boolean
  | showTree => .boolean
  | serviceEnabled => .boolean

/-- The values that a setting may have, where no nesting limit is above the greatest. -/
def Allows (greatestDepth : Nat) : Key → Toml.Value → Prop
  | seed, .integer _ => True
  | maxDice, .integer value => 1 ≤ value
  | maxDepth, .integer value => 1 ≤ value ∧ value ≤ greatestDepth
  | format, .string text => text = "text" ∨ text = "json"
  | showRolls, .boolean _ => True
  | showTree, .boolean _ => True
  | serviceEnabled, .boolean _ => True
  | _, _ => False

end Key

/-- The value that a table gives a setting. -/
def given? (data : Toml.Table) (key : Key) : Option Toml.Value :=
  match data.get? key.table with
  | some (.table entries) => Toml.Table.get? entries key.name
  | _ => none

/-- A name stands for a table, if it stands for anything. -/
def MayHold (data : Toml.Table) (name : String) : Prop :=
  ∀ value, data.get? name = some value → ∃ entries, value = .table entries

/-- A table from which settings can be taken. -/
structure IsSound (greatestDepth : Nat) (data : Toml.Table) : Prop where
  version : data.get? "version" = some (.integer 1)
  tables : ∀ name ∈ tableNames, MayHold data name
  settings : ∀ key value, given? data key = some value → key.Allows greatestDepth value

/-- The value that some settings have for a key, if they have one. -/
def value? (settings : Settings) : Key → Option Toml.Value
  | .seed => settings.seed.map .integer
  | .maxDice => settings.maxDice.map .integer
  | .maxDepth => some (.integer settings.maxDepth.levels)
  | .format => some (.string settings.format.written)
  | .showRolls => some (.boolean settings.showRolls)
  | .showTree => some (.boolean settings.showTree)
  | .serviceEnabled => some (.boolean settings.serviceEnabled)

/-- Some settings have the values that a table gives, and the standard values elsewhere. -/
def Reflects (data : Toml.Table) (settings : Settings) : Prop :=
  ∀ key, settings.value? key = (given? data key <|> standard.value? key)

/-- Settings are told apart by their values. -/
theorem ext_value? {settings other : Settings}
    (same : ∀ key, settings.value? key = other.value? key) : settings = other := by
  have wrap {first second : Option Int}
      (equal : first.map Toml.Value.integer = second.map .integer) : first = second := by
    cases first <;> cases second <;> simp_all
  have seed : settings.seed = other.seed := wrap (same .seed)
  have maxDice : settings.maxDice = other.maxDice := wrap (same .maxDice)
  have maxDepth : settings.maxDepth = other.maxDepth := by
    have levels := same .maxDepth
    simp only [value?, Option.some.injEq, Toml.Value.integer.injEq, Int.ofNat_inj] at levels
    exact DepthLimit.ext levels
  have format : settings.format = other.format := by
    have written := same .format
    simp only [value?, Option.some.injEq, Toml.Value.string.injEq] at written
    cases first : settings.format <;> cases second : other.format <;>
      simp [first, second, OutputFormat.written] at written ⊢
  have showRolls : settings.showRolls = other.showRolls := by
    simpa [value?] using same .showRolls
  have showTree : settings.showTree = other.showTree := by
    simpa [value?] using same .showTree
  have serviceEnabled : settings.serviceEnabled = other.serviceEnabled := by
    simpa [value?] using same .serviceEnabled
  cases settings
  cases other
  simp_all

/-! ## What is wrong with a table -/

/-- What is wrong with the version. -/
def versionDefects (data : Toml.Table) : List Defect :=
  match data.get? "version" with
  | none => [.noVersion]
  | some (.integer version) => if version = 1 then [] else [.unsupportedVersion version]
  | some _ => [.wrongShape "version" .integer]

/-- A table that is no table. -/
def tableDefects (data : Toml.Table) (name : String) : List Defect :=
  match data.get? name with
  | none => []
  | some (.table _) => []
  | some _ => [.notTable name]

/-- A setting of another type than it must have. -/
def shapeDefects (data : Toml.Table) (key : Key) : List Defect :=
  match given? data key with
  | none => []
  | some value =>
    if key.shape.fits value then [] else [.wrongShape (key.table ++ "." ++ key.name) key.shape]

/-- A setting that is out of range. -/
def rangeDefects (greatestDepth : Nat) (data : Toml.Table) (key : Key) : List Defect :=
  match key, given? data key with
  | .maxDice, some (.integer value) => if value < 1 then [.maxDiceTooSmall] else []
  | .maxDepth, some (.integer value) =>
    if value < 1 then [.maxDepthTooSmall]
    else if greatestDepth < value then [.maxDepthTooLarge greatestDepth]
    else []
  | .format, some (.string text) =>
    if text = "text" ∨ text = "json" then [] else [.unknownFormat]
  | _, _ => []

/-- Everything that is wrong with a table, in the order in which it is told. -/
def defects (greatestDepth : Nat) (data : Toml.Table) : List Defect :=
  versionDefects data ++ tableNames.flatMap (tableDefects data) ++
    Key.all.flatMap (shapeDefects data) ++ Key.all.flatMap (rangeDefects greatestDepth data)

variable {greatestDepth : Nat}

theorem versionDefects_eq_nil_iff {data : Toml.Table} :
    versionDefects data = [] ↔ data.get? "version" = some (.integer 1) := by
  unfold versionDefects
  cases data.get? "version" with
  | none => simp
  | some value => cases value <;> simp

theorem tableDefects_eq_nil_iff {data : Toml.Table} {name : String} :
    tableDefects data name = [] ↔ MayHold data name := by
  unfold tableDefects MayHold
  cases data.get? name with
  | none => simp
  | some value => cases value <;> simp

/-- A value of the right type and in range is one that the setting may have. -/
theorem Key.allows_iff {data : Toml.Table} {key : Key} {value : Toml.Value}
    (given : given? data key = some value) :
    key.Allows greatestDepth value ↔
      shapeDefects data key = [] ∧ rangeDefects greatestDepth data key = [] := by
  simp only [shapeDefects, rangeDefects, given]
  cases key with
  | maxDepth =>
      cases value with
      | integer value =>
          by_cases small : value < 1
          · have notOne : ¬ 1 ≤ value := by omega
            simp [Allows, shape, Shape.fits, small, notOne]
          · have one : 1 ≤ value := by omega
            simp [Allows, shape, Shape.fits, small, one]
      | _ => simp [Allows, shape, Shape.fits]
  | format =>
      cases value with
      | string text => simp [Allows, shape, Shape.fits, Decidable.or_iff_not_imp_left]
      | _ => simp [Allows, shape, Shape.fits]
  | _ => cases value <;> simp [Allows, shape, Shape.fits]

theorem rangeDefects_of_none {data : Toml.Table} {key : Key} (absent : given? data key = none) :
    rangeDefects greatestDepth data key = [] := by
  unfold rangeDefects
  rw [absent]
  cases key <;> rfl

/-- **A table is sound exactly when nothing is wrong with it.** -/
theorem defects_eq_nil_iff {data : Toml.Table} :
    defects greatestDepth data = [] ↔ IsSound greatestDepth data := by
  have settings (key : Key) :
      (∀ value, given? data key = some value → key.Allows greatestDepth value) ↔
      shapeDefects data key = [] ∧ rangeDefects greatestDepth data key = [] := by
    cases given : given? data key with
    | none => simp [shapeDefects, given, rangeDefects_of_none given]
    | some value => simp [Key.allows_iff given]
  simp only [defects, List.append_eq_nil_iff, List.flatMap_eq_nil_iff, versionDefects_eq_nil_iff,
    tableDefects_eq_nil_iff]
  constructor
  · rintro ⟨⟨⟨version, tables⟩, shapes⟩, ranges⟩
    exact ⟨version, tables, fun key =>
      (settings key).mpr ⟨shapes key key.mem_all, ranges key key.mem_all⟩⟩
  · rintro ⟨version, tables, allowed⟩
    exact ⟨⟨⟨version, tables⟩, fun key _ => ((settings key).mp (allowed key)).1⟩,
      fun key _ => ((settings key).mp (allowed key)).2⟩

/-! ## Checks -/

/-- A check tells the first of some defects. If there are none, its result has some property. -/
def Tells {α : Type} (check : Except Defect α) (defects : List Defect) (holds : α → Prop) : Prop :=
  match check with
  | .error defect => defects.head? = some defect
  | .ok result => defects = [] ∧ holds result

/-- **Checks in sequence tell the first defect of all.** -/
theorem Tells.bind {α β : Type} {check : Except Defect α} {next : α → Except Defect β}
    {first later : List Defect} {found : α → Prop} {holds : β → Prop}
    (before : Tells check first found)
    (after : ∀ result, found result → Tells (next result) later holds) :
    Tells (check >>= next) (first ++ later) holds := by
  cases check with
  | error defect =>
      have told : first.head? = some defect := before
      exact List.head?_append.trans (by rw [told, Option.some_or])
  | ok result =>
      obtain ⟨rfl, property⟩ := before
      exact after result property

theorem Tells.done {α : Type} {result : α} {holds : α → Prop} (property : holds result) :
    Tells (pure result) [] holds :=
  ⟨rfl, property⟩

variable {data : Toml.Table}

theorem tells_checkVersion (data : Toml.Table) :
    Tells (checkVersion data) (versionDefects data) fun _ => True := by
  unfold checkVersion versionDefects
  cases data.get? "version" with
  | none => rfl
  | some value =>
      cases value with
      | integer version =>
          simp only [asInteger]
          split
          · exact ⟨rfl, trivial⟩
          · rfl
      | _ => rfl

/-- Looking for a table tells whether it is one, and finds what is given there. -/
theorem tells_tableOf (data : Toml.Table) (name : String) :
    Tells (tableOf data name) (tableDefects data name) fun entries =>
      ∀ key : Key, key.table = name → entries.get? key.name = given? data key := by
  have given (key : Key) (here : key.table = name) : given? data key =
      match data.get? name with
      | some (.table entries) => Toml.Table.get? entries key.name
      | _ => none := by
    rw [← here]
    rfl
  unfold tableOf tableDefects
  cases found : data.get? name with
  | none =>
      refine ⟨rfl, fun key here => ?_⟩
      rw [given key here, found]
      rfl
  | some value =>
      cases value with
      | table entries =>
          refine ⟨rfl, fun key here => ?_⟩
          rw [given key here, found]
      | _ => rfl

/-- How values of a type are read: all others have the wrong type. -/
def Reads {α : Type} (read : String → Toml.Value → Except Defect α) (shape : Shape)
    (make : α → Toml.Value) : Prop :=
  ∀ name value, Tells (read name value) (if shape.fits value then [] else [.wrongShape name shape])
    fun result => value = make result

theorem reads_asInteger : Reads asInteger .integer .integer := by
  intro name value
  cases value with
  | integer value => exact ⟨rfl, rfl⟩
  | _ => rfl

theorem reads_asBoolean : Reads asBoolean .boolean .boolean := by
  intro name value
  cases value with
  | boolean value => exact ⟨rfl, rfl⟩
  | _ => rfl

theorem reads_asString : Reads asString .string .string := by
  intro name value
  cases value with
  | string text => exact ⟨rfl, rfl⟩
  | _ => rfl

/-- Looking for a setting tells whether it has its type, and finds the value that is given. -/
theorem tells_setting? {α : Type} {read : String → Toml.Value → Except Defect α}
    {make : α → Toml.Value} (key : Key) (reads : Reads read key.shape make) {entries : Toml.Table}
    (here : entries.get? key.name = given? data key) :
    Tells (setting? read key.table entries key.name) (shapeDefects data key) fun result =>
      given? data key = result.map make := by
  unfold setting? shapeDefects
  rw [here]
  cases given? data key with
  | none => exact ⟨rfl, rfl⟩
  | some value =>
      have told := reads (key.table ++ "." ++ key.name) value
      simp only
      cases found : read (key.table ++ "." ++ key.name) value with
      | error defect =>
          rw [found] at told
          exact told
      | ok result =>
          rw [found] at told
          exact ⟨told.1, congrArg some told.2⟩

/-! ## Ranges -/

theorem tells_checkMaxDice {maxDice : Option Int}
    (given : given? data .maxDice = maxDice.map .integer) :
    Tells (checkMaxDice maxDice) (rangeDefects greatestDepth data .maxDice) fun _ => True := by
  unfold checkMaxDice rangeDefects
  rw [given]
  cases maxDice with
  | none => exact ⟨rfl, trivial⟩
  | some value =>
      by_cases small : value < 1
      · simp [small, Tells]
      · simp [small, Tells]

theorem tells_toDepthLimit {levels : Option Int}
    (given : given? data .maxDepth = levels.map .integer) :
    Tells (toDepthLimit greatestDepth levels) (rangeDefects greatestDepth data .maxDepth)
      fun limit =>
        some (.integer limit.levels) = (given? data .maxDepth <|> standard.value? .maxDepth) := by
  unfold toDepthLimit rangeDefects
  rw [given]
  cases levels with
  | none => exact ⟨rfl, rfl⟩
  | some value =>
      by_cases range : 1 ≤ value ∧ value ≤ greatestDepth
      · have small : ¬ value < 1 := by omega
        have large : ¬ (greatestDepth : Int) < value := by omega
        have levels : ((value.toNat : Nat) : Int) = value := by omega
        simp only [DepthLimit.ofInt?, dif_pos range, Option.map_some, if_neg small, if_neg large]
        exact ⟨rfl, congrArg (some ∘ Toml.Value.integer) levels⟩
      · simp only [DepthLimit.ofInt?, dif_neg range, Option.map_some]
        by_cases small : value < 1
        · simp [small, Tells]
        · have large : (greatestDepth : Int) < value := by omega
          simp [small, large, Tells]

theorem tells_toFormat {name : Option String} (given : given? data .format = name.map .string) :
    Tells (toFormat name) (rangeDefects greatestDepth data .format) fun format =>
      some (.string format.written) = (given? data .format <|> standard.value? .format) := by
  unfold rangeDefects
  rw [given]
  cases name with
  | none => exact ⟨rfl, rfl⟩
  | some text =>
      by_cases plain : text = "text"
      · subst plain
        exact ⟨rfl, rfl⟩
      · by_cases json : text = "json"
        · subst json
          exact ⟨rfl, rfl⟩
        · have unknown : toFormat (some text) = .error .unknownFormat := by
            unfold toFormat
            split <;> simp_all
          simp [unknown, plain, json, Tells]

/-! ## The whole reading -/

/-- **The reading of a table tells the first of its defects**, and takes the settings that the table
gives if there are none. -/
theorem tells_ofTable (greatestDepth : Nat) (data : Toml.Table) :
    Tells (ofTable greatestDepth data) (defects greatestDepth data) (Reflects data) := by
  have inOrder : defects greatestDepth data = versionDefects data ++ (tableDefects data "roll" ++
      (tableDefects data "parser" ++ (tableDefects data "output" ++ (tableDefects data "mcp" ++
        (shapeDefects data .seed ++ (shapeDefects data .maxDice ++ (shapeDefects data .maxDepth ++
          (shapeDefects data .format ++ (shapeDefects data .showRolls ++
            (shapeDefects data .showTree ++ (shapeDefects data .serviceEnabled ++
              (rangeDefects greatestDepth data .maxDice ++
                (rangeDefects greatestDepth data .maxDepth ++
                  (rangeDefects greatestDepth data .format ++ [])))))))))))))) := by
    simp [defects, tableNames, Key.all, rangeDefects]
  rw [inOrder]
  refine (tells_checkVersion data).bind fun _ _ => ?_
  refine (tells_tableOf data "roll").bind fun roll inRoll => ?_
  refine (tells_tableOf data "parser").bind fun parser inParser => ?_
  refine (tells_tableOf data "output").bind fun output inOutput => ?_
  refine (tells_tableOf data "mcp").bind fun mcp inMcp => ?_
  refine (tells_setting? .seed reads_asInteger (inRoll .seed rfl)).bind fun seed isSeed => ?_
  refine (tells_setting? .maxDice reads_asInteger (inRoll .maxDice rfl)).bind
    fun maxDice isMaxDice => ?_
  refine (tells_setting? .maxDepth reads_asInteger (inParser .maxDepth rfl)).bind
    fun levels isLevels => ?_
  refine (tells_setting? .format reads_asString (inOutput .format rfl)).bind
    fun name isName => ?_
  refine (tells_setting? .showRolls reads_asBoolean (inOutput .showRolls rfl)).bind
    fun showRolls isShowRolls => ?_
  refine (tells_setting? .showTree reads_asBoolean (inOutput .showTree rfl)).bind
    fun showTree isShowTree => ?_
  refine (tells_setting? .serviceEnabled reads_asBoolean (inMcp .serviceEnabled rfl)).bind
    fun enabled isEnabled => ?_
  refine (tells_checkMaxDice isMaxDice).bind fun _ _ => ?_
  refine (tells_toDepthLimit isLevels).bind fun limit isLimit => ?_
  refine (tells_toFormat isName).bind fun format isFormat => ?_
  refine .done fun key => ?_
  cases key with
  | seed => cases seed <;> simp [isSeed, value?, standard]
  | maxDice => cases maxDice <;> simp [isMaxDice, value?, standard]
  | maxDepth => exact isLimit
  | format => exact isFormat
  | showRolls => cases showRolls <;> simp [isShowRolls, value?, standard]
  | showTree => cases showTree <;> simp [isShowTree, value?, standard]
  | serviceEnabled => cases enabled <;> simp [isEnabled, value?, standard]

/-- A table is refused because of the first of its defects. -/
theorem ofTable_eq_error_iff {data : Toml.Table} {defect : Defect} :
    ofTable greatestDepth data = .error defect ↔
      (defects greatestDepth data).head? = some defect := by
  have tells := tells_ofTable greatestDepth data
  cases read : ofTable greatestDepth data with
  | error told =>
      rw [read] at tells
      have first : (defects greatestDepth data).head? = some told := tells
      simp [first]
  | ok settings =>
      rw [read] at tells
      simp [tells.1]

/-- The settings of a table are those that reflect it, if the table is sound. -/
theorem ofTable_eq_ok_iff {data : Toml.Table} {settings : Settings} :
    ofTable greatestDepth data = .ok settings ↔
      IsSound greatestDepth data ∧ Reflects data settings := by
  have tells := tells_ofTable greatestDepth data
  rw [← defects_eq_nil_iff]
  cases read : ofTable greatestDepth data with
  | error told =>
      rw [read] at tells
      have first : (defects greatestDepth data).head? = some told := tells
      refine ⟨fun impossible => (nomatch impossible), fun ⟨empty, _⟩ => ?_⟩
      rw [empty] at first
      cases first
  | ok taken =>
      rw [read] at tells
      refine ⟨fun same => ?_, fun ⟨_, reflects⟩ => ?_⟩
      · cases same
        exact tells
      · exact congrArg Except.ok (ext_value? fun key => (tells.2 key).trans (reflects key).symm)

/-! ## What else a table holds -/

/-- Two tables have the same version, hold tables under the same of the names that matter, and give
every setting the same value. -/
structure Alike (data other : Toml.Table) : Prop where
  version : other.get? "version" = data.get? "version"
  tables : ∀ name ∈ tableNames, MayHold other name ↔ MayHold data name
  settings : ∀ key, given? other key = given? data key

theorem tableDefects_eq (data : Toml.Table) (name : String) :
    tableDefects data name = [] ∨ tableDefects data name = [.notTable name] := by
  unfold tableDefects
  split
  · exact .inl rfl
  · exact .inl rfl
  · exact .inr rfl

/-- **Nothing else in a table matters.** -/
theorem Alike.ofTable_eq {data other : Toml.Table} (alike : Alike data other) :
    ofTable greatestDepth other = ofTable greatestDepth data := by
  have versions : versionDefects other = versionDefects data := by
    unfold versionDefects
    rw [alike.version]
  have tables : ∀ name ∈ tableNames, tableDefects other name = tableDefects data name := by
    intro name member
    have same := alike.tables name member
    rw [← tableDefects_eq_nil_iff, ← tableDefects_eq_nil_iff] at same
    rcases tableDefects_eq data name with none | some
    · rw [none, same.mpr none]
    · rcases tableDefects_eq other name with none' | some'
      · rw [none', same.mp none']
      · rw [some, some']
  have shapes : shapeDefects other = shapeDefects data := by
    funext key
    unfold shapeDefects
    rw [alike.settings]
  have ranges : rangeDefects greatestDepth other = rangeDefects greatestDepth data := by
    funext key
    unfold rangeDefects
    rw [alike.settings]
  have same : defects greatestDepth other = defects greatestDepth data := by
    have every : tableNames.flatMap (tableDefects other) =
        tableNames.flatMap (tableDefects data) := by
      rw [List.flatMap_def, List.flatMap_def, List.map_congr_left tables]
    rw [defects, versions, every, shapes, ranges, ← defects]
  cases read : ofTable greatestDepth data with
  | error defect => rwa [ofTable_eq_error_iff, same, ← ofTable_eq_error_iff]
  | ok settings =>
      rw [ofTable_eq_ok_iff, ← defects_eq_nil_iff] at read ⊢
      rw [same]
      exact ⟨read.1, fun key => by rw [alike.settings, read.2 key]⟩

end Settings

end DiceNotation
