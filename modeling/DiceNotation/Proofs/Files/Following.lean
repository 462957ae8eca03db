import DiceNotation.Files.Tree
import Mathlib

/-!
# Following paths

A path is followed one name at a time, and each name leads one level down or, if it is a double dot,
up. So names without double dots lead to the place they name (`FileTree.eq_append_of_follow`).

Names that are added to a path make it longer as it is shown (`Path.utf8ByteSize_display_le`). Hence
a path that can be followed has an open directory as its parent (`World.find_parent`).
-/

set_option autoImplicit false

namespace DiceNotation

/-! ## Paths -/

namespace Path

/-- Removing double dots adds no parts. -/
theorem mem_of_mem_removeDots {part : String} (parts : List String)
    (member : part ∈ removeDots parts) : part ∈ parts := by
  have folded (more kept : List String)
      (member : part ∈ more.foldl
        (fun kept part => if part == ".." then kept.dropLast else kept ++ [part]) kept) :
      part ∈ kept ∨ part ∈ more := by
    induction more generalizing kept with
    | nil => exact .inl member
    | cons first rest ih =>
        rw [List.foldl_cons] at member
        rcases ih _ member with before | later
        · split at before
          · exact .inl (List.mem_of_mem_dropLast before)
          · rcases List.mem_append.mp before with old | new
            · exact .inl old
            · exact .inr (List.mem_cons.mpr (.inl (List.mem_singleton.mp new)))
        · exact .inr (List.mem_cons_of_mem _ later)
  rcases folded parts [] member with impossible | inside
  · cases impossible
  · exact inside

theorem removeDots_eq_self {parts : List String} (plain : ".." ∉ parts) :
    removeDots parts = parts := by
  have folded (more kept : List String) (plain : ".." ∉ more) :
      more.foldl (fun kept part => if part == ".." then kept.dropLast else kept ++ [part]) kept =
        kept ++ more := by
    induction more generalizing kept with
    | nil => exact (List.append_nil kept).symm
    | cons first rest ih =>
        obtain ⟨other, plain⟩ := not_or.mp (mt List.mem_cons.mpr plain)
        have name : (first == "..") = false := beq_false_of_ne (Ne.symm other)
        rw [List.foldl_cons, name, ih _ plain]
        simp
  exact folded parts [] plain

theorem holdsNull_absolute {parts : List String} :
    (absolute parts).holdsNull = false ↔ ∀ part ∈ parts, part.contains '\x00' = false := by
  simp [holdsNull, absolute]

/-- The place that a path means holds the null character only if the path or the working directory
does. -/
theorem holdsNull_resolve {path : Path} {workingDirectory : List String}
    (plain : path.holdsNull = false) (start : (absolute workingDirectory).holdsNull = false) :
    (absolute (path.resolve workingDirectory)).holdsNull = false := by
  have parts : ∀ part ∈ path.parts, part.contains '\x00' = false := by
    simpa [holdsNull] using plain
  rw [holdsNull_absolute] at start ⊢
  intro part member
  have seen := mem_of_mem_removeDots _ member
  unfold seenFrom at seen
  split at seen
  · rcases List.mem_append.mp seen with above | own
    · exact start part above
    · exact parts part own
  · exact parts part seen

/-- The length of an absolute path as it is shown. -/
theorem utf8ByteSize_display {parts : List String} (present : parts ≠ []) :
    (absolute parts).display.utf8ByteSize =
      (parts.map fun part => part.utf8ByteSize + 1).sum := by
  have joined (first : String) (rest : List String) :
      ("/".intercalate (first :: rest)).utf8ByteSize + 1 =
        ((first :: rest).map fun part => part.utf8ByteSize + 1).sum := by
    induction rest generalizing first with
    | nil => simp
    | cons second rest ih =>
        have slash : "/".utf8ByteSize = 1 := by decide
        rw [String.intercalate_cons_cons, String.utf8ByteSize_append, String.utf8ByteSize_append,
          List.map_cons, List.sum_cons, ← ih second, slash]
        omega
  cases parts with
  | nil => exact absurd rfl present
  | cons first rest =>
      have slash : "/".utf8ByteSize = 1 := by decide
      rw [← joined first rest, Nat.add_comm, display, absolute, String.utf8ByteSize_append, slash]

/-- **A path with more parts is longer as it is shown.** -/
theorem utf8ByteSize_display_le {parts others : List String} (sublist : parts.Sublist others) :
    (absolute parts).display.utf8ByteSize ≤ (absolute others).display.utf8ByteSize := by
  by_cases empty : others = []
  · subst empty
    rw [List.sublist_nil.mp sublist]
  · by_cases none : parts = []
    · subst none
      rw [utf8ByteSize_display empty]
      cases others with
      | nil => exact absurd rfl empty
      | cons first rest =>
          have root : (absolute []).display.utf8ByteSize = 1 := by decide
          rw [root, List.map_cons, List.sum_cons]
          omega
    · rw [utf8ByteSize_display none, utf8ByteSize_display empty]
      exact (sublist.map _).sum_le_sum fun _ _ => Nat.zero_le _

end Path

/-! ## Trees -/

namespace FileTree

variable {tree : FileTree} {place last : List String} {name : String}

/-- A step leads out of an open directory, up or down by one name. -/
theorem of_enter (entered : tree.enter place name = .ok last) :
    tree.at? place = some .directory ∧ tree.isClosed place = false ∧
      (name = ".." ∧ last = place.dropLast ∨ name ≠ ".." ∧ last = place ++ [name]) := by
  unfold enter at entered
  split at entered
  · cases entered
  · cases entered
  · rename_i here
    refine ⟨here, ?_⟩
    split at entered
    · cases entered
    · rename_i isOpen
      refine ⟨Bool.eq_false_iff.mpr isOpen, ?_⟩
      split at entered
      · rename_i up
        cases entered
        exact .inl ⟨by simpa using up, rfl⟩
      · rename_i down
        split at entered
        · cases entered
        · split at entered
          · cases entered
          · cases entered
            exact .inr ⟨by simpa using down, rfl⟩

theorem enter_ne_nullCharacter : tree.enter place name ≠ .error .nullCharacter := by
  unfold enter
  repeat' split
  all_goals exact nofun

theorem follow_append (names more : List String) :
    tree.follow place (names ++ more) =
      match tree.follow place names with
      | .ok next => tree.follow next more
      | .error obstacle => .error obstacle := by
  induction names generalizing place with
  | nil => rfl
  | cons name rest ih =>
      simp only [List.cons_append, follow]
      cases tree.enter place name with
      | ok next => exact ih
      | error obstacle => rfl

theorem follow_ne_nullCharacter {names : List String} :
    tree.follow place names ≠ .error .nullCharacter := by
  induction names generalizing place with
  | nil => exact nofun
  | cons name rest ih =>
      have step : tree.enter place name ≠ .error .nullCharacter := enter_ne_nullCharacter
      unfold follow
      cases entered : tree.enter place name with
      | ok next => exact ih
      | error obstacle =>
          rintro ⟨⟩
          exact step entered

/-- **Names without double dots lead to the place that they name**, if they lead anywhere. -/
theorem eq_append_of_follow {names : List String} (dots : ".." ∉ names)
    (followed : tree.follow place names = .ok last) : last = place ++ names := by
  induction names generalizing place with
  | nil =>
      cases followed
      exact (List.append_nil _).symm
  | cons name rest ih =>
      obtain ⟨other, dots⟩ := not_or.mp (mt List.mem_cons.mpr dots)
      unfold follow at followed
      cases entered : tree.enter place name with
      | error obstacle =>
          rw [entered] at followed
          cases followed
      | ok next =>
          rw [entered] at followed
          obtain ⟨-, -, ⟨up, -⟩ | ⟨-, rfl⟩⟩ := of_enter entered
          · exact absurd up.symm other
          · rw [ih dots followed, List.append_assoc, List.singleton_append]

end FileTree

/-! ## Worlds -/

namespace World

variable {world : World} {path : Path} {place front : List String} {name : String}

/-- A path without the null character in it is followed. -/
theorem find_ne_nullCharacter (plain : path.holdsNull = false) :
    world.find path ≠ .error .nullCharacter := by
  unfold find
  rw [plain]
  simp only [Bool.false_eq_true, if_false]
  split
  · exact nofun
  · split
    · rename_i obstacle stopped
      rintro ⟨⟩
      exact FileTree.follow_ne_nullCharacter stopped
    · cases world.tree.at? _ <;> exact nofun

theorem find_of_long (plain : (Path.absolute place).holdsNull = false)
    (long : maxPathLength < (Path.absolute place).display.utf8ByteSize) :
    world.find (.absolute place) = .error .nameTooLong := by
  unfold find
  rw [plain, if_neg Bool.false_ne_true, if_pos long]

theorem find_of_short (plain : (Path.absolute place).holdsNull = false)
    (short : ¬ maxPathLength < (Path.absolute place).display.utf8ByteSize) :
    world.find (.absolute place) =
      match world.tree.follow [] place with
      | .error obstacle => .error obstacle
      | .ok last => (world.tree.at? last).elim (.error .missing) .ok := by
  unfold find
  rw [plain, if_neg Bool.false_ne_true, if_neg short]
  rfl

/-- What a path from the root leads to. -/
theorem find_eq_ok_iff {entry : Entry} :
    world.find (.absolute place) = .ok entry ↔
      (Path.absolute place).holdsNull = false ∧
        (Path.absolute place).display.utf8ByteSize ≤ maxPathLength ∧
        ∃ last, world.tree.follow [] place = .ok last ∧ world.tree.at? last = some entry := by
  cases plain : (Path.absolute place).holdsNull with
  | true => simp [find, plain]
  | false =>
      by_cases long : maxPathLength < (Path.absolute place).display.utf8ByteSize
      · simp [find_of_long plain long, Nat.not_le.mpr long]
      · rw [find_of_short plain long]
        simp only [Nat.not_lt.mp long, true_and]
        cases world.tree.follow [] place with
        | error obstacle => simp
        | ok last =>
            cases found : world.tree.at? last <;> simp [found]

/-- **The parent of a path that leads somewhere is an open directory.** -/
theorem find_parent {entry : Entry} (dots : ".." ∉ place)
    (found : world.find (.absolute (place ++ [name])) = .ok entry) :
    world.find (.absolute place) = .ok .directory ∧ world.tree.isClosed place = false := by
  obtain ⟨plain, short, last, followed, _⟩ := find_eq_ok_iff.mp found
  rw [FileTree.follow_append] at followed
  rw [Path.holdsNull_absolute] at plain
  have shorter := Path.utf8ByteSize_display_le (List.sublist_append_left place [name])
  cases before : world.tree.follow [] place with
  | error obstacle =>
      rw [before] at followed
      cases followed
  | ok next =>
      obtain rfl : next = place := FileTree.eq_append_of_follow dots before
      rw [before] at followed
      simp only [FileTree.follow] at followed
      cases entered : world.tree.enter next name with
      | error obstacle =>
          rw [entered] at followed
          cases followed
      | ok after =>
          obtain ⟨directory, isOpen, -⟩ := FileTree.of_enter entered
          refine ⟨find_eq_ok_iff.mpr ⟨?_, shorter.trans short, next, before, directory⟩, isOpen⟩
          exact Path.holdsNull_absolute.mpr fun part member =>
            plain part (List.mem_append_left _ member)

/-- A directory that holds an entry which a path leads to can be made the working directory. -/
theorem changeTo_parent {entry : Entry} (dots : ".." ∉ place)
    (found : world.find (.absolute (place ++ [name])) = .ok entry) :
    world.changeTo (.absolute place) = .ok { world with workingDirectory := place } := by
  obtain ⟨directory, isOpen⟩ := find_parent dots found
  have resolved : (Path.absolute place).resolve world.workingDirectory = place :=
    Path.removeDots_eq_self dots
  simp only [changeTo, directory, resolved, isOpen, Bool.false_eq_true, if_false]

/-- The working directory of a world exists: it is a directory, as are the places above it. It has
no double dots, and no name of a directory holds the null character. -/
structure Stands (world : World) : Prop where
  directory : ∀ front, front <+: world.workingDirectory → world.tree.at? front = some .directory
  dots : ".." ∉ world.workingDirectory
  plain : (Path.absolute world.workingDirectory).holdsNull = false

theorem Stands.dots_of_isPrefix (stands : world.Stands) (above : front <+: world.workingDirectory) :
    ".." ∉ front :=
  fun member => stands.dots (above.subset member)

end World

end DiceNotation
