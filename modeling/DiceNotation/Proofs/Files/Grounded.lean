import DiceNotation.Proofs.Files.Following

/-!
# Looking anywhere in a tree

In a tree as a system keeps it, every entry is an entry of a directory (`FileTree.Grounded`). A path
from the root without double dots then leads to the place it names or to none, and the tree says
which (`World.find_cases`). The system refuses to say it in three cases (`World.Refuses`): the path
is too long as a whole, a directory on the way is closed, or a name that is too long leaves an open
directory. A closed directory or a long name behind the place where the way ends is never looked at,
and of several on the way the first one counts (`FileTree.Blocks`).

Whether a path is refused is decided by what it begins with, so a path that is not refused begins
with paths that are not (`FileTree.Blocks.of_isPrefix`).
-/

set_option autoImplicit false

namespace DiceNotation

/-- Resolving a path leaves no double dots. -/
theorem Path.not_mem_removeDots (parts : List String) : ".." ∉ removeDots parts := by
  have folded (more kept : List String) (plain : ".." ∉ kept) :
      ".." ∉ more.foldl
        (fun kept part => if part == ".." then kept.dropLast else kept ++ [part]) kept := by
    induction more generalizing kept with
    | nil => exact plain
    | cons first rest ih =>
        rw [List.foldl_cons]
        apply ih
        split
        · exact mt List.mem_of_mem_dropLast plain
        · rename_i other
          have differ : ".." ≠ first := fun same => other (by rw [← same]; rfl)
          exact fun member => (List.mem_append.mp member).elim plain
            fun last => differ (List.mem_singleton.mp last)
  exact folded parts [] List.not_mem_nil

namespace FileTree

variable {tree : FileTree} {place other names : List String} {name : String}

/-- Every entry is an entry of a directory. -/
def Grounded (tree : FileTree) : Prop :=
  ∀ place name entry, tree.at? (place ++ [name]) = some entry → tree.at? place = some .directory

/-- On the way to a place, there is nothing below what is no directory. -/
def GroundedAlong (tree : FileTree) (place : List String) : Prop :=
  ∀ front name, front <+: place → tree.at? front ≠ some .directory →
    tree.at? (front ++ [name]) = none

theorem GroundedAlong.of_isPrefix (grounded : tree.GroundedAlong other) (above : place <+: other) :
    tree.GroundedAlong place :=
  fun front name higher => grounded front name (higher.trans above)

theorem Grounded.along (grounded : tree.Grounded) (place : List String) :
    tree.GroundedAlong place := by
  intro front name _ other
  by_contra there
  obtain ⟨entry, there⟩ := Option.ne_none_iff_exists'.mp there
  exact other (grounded front name entry there)

/-! ## What stands in the way -/

/-- A step from a directory that the system refuses: the directory is closed, or it is open and the
name is too long. -/
inductive Denies (tree : FileTree) (place : List String) (name : String) : Obstacle → Prop
  | closed : tree.at? place = some .directory → tree.isClosed place = true →
      Denies tree place name .denied
  | longName : tree.at? place = some .directory → tree.isClosed place = false →
      maxNameLength < name.utf8ByteSize → Denies tree place name .nameTooLong

theorem Denies.unique {obstacle obstacle' : Obstacle} (denies : tree.Denies place name obstacle)
    (denies' : tree.Denies place name obstacle') : obstacle = obstacle' := by
  cases denies with
  | closed _ closed =>
      cases denies' with
      | closed => rfl
      | longName _ isOpen => cases closed.symm.trans isOpen
  | longName _ isOpen =>
      cases denies' with
      | closed _ closed => cases closed.symm.trans isOpen
      | longName => rfl

/-- The first step that the system refuses on the way to a place, with the obstacle. -/
def Blocks (tree : FileTree) (names : List String) (obstacle : Obstacle) : Prop :=
  ∃ front name, front ++ [name] <+: names ∧ tree.Denies front name obstacle ∧
    ∀ higher next other, higher ++ [next] <+: front → ¬ tree.Denies higher next other

variable {obstacle : Obstacle}

theorem not_blocks_nil : ¬ tree.Blocks [] obstacle := by
  rintro ⟨front, name, above, -⟩
  have := List.prefix_nil.mp above
  simp at this

theorem Blocks.of_isPrefix (blocks : tree.Blocks place obstacle) (above : place <+: other) :
    tree.Blocks other obstacle := by
  obtain ⟨front, name, within, first⟩ := blocks
  exact ⟨front, name, within.trans above, first⟩

/-- A step that is refused is the first one, or there is one before it. -/
theorem exists_blocks_iff :
    (∃ obstacle, tree.Blocks names obstacle) ↔
      ∃ front name obstacle, front ++ [name] <+: names ∧ tree.Denies front name obstacle := by
  refine ⟨fun ⟨obstacle, front, name, above, denies, _⟩ => ⟨front, name, obstacle, above, denies⟩,
    ?_⟩
  induction names using List.reverseRecOn with
  | nil =>
      rintro ⟨front, name, -, above, -⟩
      have := List.prefix_nil.mp above
      simp at this
  | append_singleton place last ih =>
      rintro ⟨front, name, obstacle, above, denies⟩
      by_cases earlier : ∃ front name obstacle, front ++ [name] <+: place ∧
          tree.Denies front name obstacle
      · obtain ⟨obstacle, blocks⟩ := ih earlier
        exact ⟨obstacle, blocks.of_isPrefix (List.prefix_append ..)⟩
      · refine ⟨obstacle, front, name, above, denies, fun higher next other within denied => ?_⟩
        rcases List.prefix_concat_iff.mp above with same | before
        · obtain ⟨rfl, rfl⟩ := List.append_singleton_inj.mp same
          exact earlier ⟨higher, next, other, within, denied⟩
        · exact earlier ⟨front, name, obstacle, before, denies⟩

/-- What blocks a place blocks the one above it, or it is the last step. -/
theorem blocks_append_singleton :
    tree.Blocks (names ++ [name]) obstacle ↔
      tree.Blocks names obstacle ∨
        (∀ other, ¬ tree.Blocks names other) ∧ tree.Denies names name obstacle := by
  constructor
  · rintro ⟨front, last, above, denies, first⟩
    rcases List.prefix_concat_iff.mp above with same | higher
    · obtain ⟨rfl, rfl⟩ := List.append_singleton_inj.mp same
      refine .inr ⟨fun other blocks => ?_, denies⟩
      obtain ⟨higher, next, other, within, denied⟩ := exists_blocks_iff.mp ⟨other, blocks⟩
      exact first higher next other within denied
    · exact .inl ⟨front, last, higher, denies, first⟩
  · rintro (blocks | ⟨free, denies⟩)
    · exact blocks.of_isPrefix (List.prefix_append ..)
    · refine ⟨names, name, List.prefix_rfl, denies, fun higher next other within denied => ?_⟩
      obtain ⟨other, blocks⟩ := exists_blocks_iff.mpr ⟨higher, next, other, within, denied⟩
      exact free other blocks

/-- A place is blocked in one way at most. -/
theorem Blocks.unique {obstacle' : Obstacle} (blocks : tree.Blocks names obstacle)
    (blocks' : tree.Blocks names obstacle') : obstacle = obstacle' := by
  induction names using List.reverseRecOn with
  | nil => exact absurd blocks not_blocks_nil
  | append_singleton front name ih =>
      rcases blocks_append_singleton.mp blocks with higher | ⟨free, denies⟩
      · rcases blocks_append_singleton.mp blocks' with higher' | ⟨free', -⟩
        · exact ih higher higher'
        · exact absurd higher (free' _)
      · rcases blocks_append_singleton.mp blocks' with higher' | ⟨-, denies'⟩
        · exact absurd higher' (free _)
        · exact denies.unique denies'

/-- A step to an entry, from a directory where the system does not refuse it. -/
theorem enter_cases (here : tree.at? place = some .directory) (down : name ≠ "..") :
    (∃ obstacle, tree.Denies place name obstacle ∧ tree.enter place name = .error obstacle) ∨
      (∀ obstacle, ¬ tree.Denies place name obstacle) ∧
        ((∃ entry, tree.at? (place ++ [name]) = some entry ∧
            tree.enter place name = .ok (place ++ [name])) ∨
          tree.at? (place ++ [name]) = none ∧ tree.enter place name = .error .missing) := by
  have down : (name == "..") = false := beq_false_of_ne down
  simp only [enter, here, down]
  cases closed : tree.isClosed place with
  | true => exact .inl ⟨.denied, .closed here closed, rfl⟩
  | false =>
      by_cases long : maxNameLength < name.utf8ByteSize
      · exact .inl ⟨.nameTooLong, .longName here closed long, by simp [long]⟩
      · refine .inr ⟨?_, ?_⟩
        · rintro _ (⟨-, shut⟩ | ⟨-, -, longer⟩)
          · cases closed.symm.trans shut
          · exact long longer
        · cases there : tree.at? (place ++ [name]) with
          | none => exact .inr ⟨rfl, by simp [long]⟩
          | some entry => exact .inl ⟨entry, rfl, by simp [long]⟩

theorem not_denies_of_ne (other : tree.at? place ≠ some .directory) :
    ¬ tree.Denies place name obstacle := by
  rintro (⟨here, -⟩ | ⟨here, -⟩) <;> exact other here

/-- **Names without double dots lead to the place they name**, unless there is nothing or the way is
blocked. -/
theorem follow_cases (grounded : tree.GroundedAlong names.dropLast) (dots : ".." ∉ names) :
    (∃ obstacle, tree.Blocks names obstacle ∧ tree.follow [] names = .error obstacle) ∨
      (∀ obstacle, ¬ tree.Blocks names obstacle) ∧
        ((∃ entry, tree.at? names = some entry ∧ tree.follow [] names = .ok names) ∨
          tree.at? names = none ∧ (tree.follow [] names = .error .missing ∨
            tree.follow [] names = .error .notDirectory)) := by
  induction names using List.reverseRecOn with
  | nil => exact .inr ⟨fun _ => not_blocks_nil, .inl ⟨.directory, rfl, rfl⟩⟩
  | append_singleton front name ih =>
      rw [List.dropLast_concat] at grounded
      obtain ⟨higher, last⟩ : ".." ∉ front ∧ ".." ≠ name := by simpa using dots
      simp only [blocks_append_singleton, follow_append]
      rcases ih (grounded.of_isPrefix (List.dropLast_prefix _)) higher with
        ⟨obstacle, blocks, followed⟩ | ⟨free, ⟨entry, here, followed⟩ | ⟨missing, followed⟩⟩
      · rw [followed]
        exact .inl ⟨obstacle, .inl blocks, rfl⟩
      · simp only [followed, follow, free, false_or, not_false_eq_true, implies_true, true_and]
        by_cases directory : entry = .directory
        · subst directory
          rcases enter_cases here last.symm with
            ⟨obstacle, denies, entered⟩ | ⟨none, ⟨entry, there, entered⟩ | ⟨nothing, entered⟩⟩
          · exact .inl ⟨obstacle, denies, by rw [entered]⟩
          · exact .inr ⟨none, .inl ⟨entry, there, by rw [entered]⟩⟩
          · exact .inr ⟨none, .inr ⟨nothing, .inl (by rw [entered])⟩⟩
        · have other : tree.at? front ≠ some .directory := by simp [here, directory]
          refine .inr ⟨fun _ => not_denies_of_ne other,
            .inr ⟨grounded front name List.prefix_rfl other, .inr ?_⟩⟩
          cases entry with
          | directory => exact absurd rfl directory
          | file content => simp [enter, here]
      · have other : tree.at? front ≠ some .directory := by simp [missing]
        refine .inr ⟨?_, .inr ⟨grounded front name List.prefix_rfl other, ?_⟩⟩
        · rintro obstacle (blocks | ⟨-, denies⟩)
          · exact free obstacle blocks
          · exact not_denies_of_ne other denies
        · rcases followed with followed | followed <;> simp [followed]

section

variable {files : List (List String × ByteArray)} {directories : List (List String)}

theorem any_below_iff :
    (files.any (below place ·.1) || directories.any (below place)) = true ↔
      (∃ file ∈ files, place <+: file.1) ∨ ∃ directory ∈ directories, place <+: directory := by
  simp only [Bool.or_eq_true, List.any_eq_true, below, List.isPrefixOf_iff_prefix]

theorem mem_of_lookup {content : ByteArray} (found : files.lookup place = some content) :
    (place, content) ∈ files := by
  obtain ⟨before, after, rfl, -⟩ := List.lookup_eq_some_iff.mp found
  simp

/-- **A tree of files and directories is grounded if nothing is below a file.** -/
theorem grounded_ofFiles
    (leaves : ∀ file ∈ files, (∀ other ∈ files, file.1 <+: other.1 → file.1 = other.1) ∧
      ∀ directory ∈ directories, ¬ file.1 <+: directory) :
    (ofFiles files directories).Grounded := by
  intro place name entry there
  -- what is at a place is a file or is above one, or above a directory
  have below : (∃ file ∈ files, place ++ [name] <+: file.1) ∨
      ∃ directory ∈ directories, place ++ [name] <+: directory := by
    have nonempty : (place ++ [name]).isEmpty = false := by simp
    simp only [at?, nonempty, Bool.false_eq_true, if_false, ofFiles] at there
    split at there
    · rename_i content found
      exact .inl ⟨_, mem_of_lookup found, List.prefix_rfl⟩
    · exact any_below_iff.mp (Option.ite_none_right_eq_some.mp there).1
  have prefixed : place <+: place ++ [name] := List.prefix_append ..
  have within := any_below_iff.mpr (below.imp
    (fun ⟨file, member, higher⟩ => ⟨file, member, prefixed.trans higher⟩)
    (fun ⟨directory, member, higher⟩ => ⟨directory, member, prefixed.trans higher⟩))
  have noFile : files.lookup place = none := by
    by_contra found
    obtain ⟨content, found⟩ := Option.ne_none_iff_exists'.mp found
    obtain ⟨apart, outside⟩ := leaves _ (mem_of_lookup found)
    rcases below with ⟨other, member, higher⟩ | ⟨directory, member, higher⟩
    · have same : place = other.1 := apart other member (prefixed.trans higher)
      have shorter := higher.length_le
      rw [← same, List.length_append, List.length_singleton] at shorter
      omega
    · exact outside directory member (prefixed.trans higher)
  unfold at?
  split
  · rfl
  · simp only [ofFiles, noFile, within, if_true]

end

end FileTree

namespace World

variable {world : World} {place : List String} {obstacle : Obstacle}

/-- The system refuses to look at a place: its path is too long as a whole, or the way to it is
blocked. -/
inductive Refuses (world : World) (place : List String) : Obstacle → Prop
  | length : maxPathLength < (Path.absolute place).display.utf8ByteSize →
      Refuses world place .nameTooLong
  | way {obstacle : Obstacle} : (Path.absolute place).display.utf8ByteSize ≤ maxPathLength →
      world.tree.Blocks place obstacle → Refuses world place obstacle

theorem Refuses.unique {obstacle' : Obstacle} (refuses : world.Refuses place obstacle)
    (refuses' : world.Refuses place obstacle') : obstacle = obstacle' := by
  cases refuses with
  | length long =>
      cases refuses' with
      | length => rfl
      | way short => exact absurd long (Nat.not_lt.mpr short)
  | way short blocks =>
      cases refuses' with
      | length long => exact absurd long (Nat.not_lt.mpr short)
      | way _ blocks' => exact blocks.unique blocks'

/-- If the way is blocked, the system refuses to look. -/
theorem exists_refuses_of_blocks (blocks : world.tree.Blocks place obstacle) :
    ∃ obstacle, world.Refuses place obstacle := by
  by_cases long : maxPathLength < (Path.absolute place).display.utf8ByteSize
  · exact ⟨.nameTooLong, .length long⟩
  · exact ⟨obstacle, .way (Nat.not_lt.mp long) blocks⟩

/-- What is refused is too long or denied. -/
theorem Refuses.eq_or_eq (refuses : world.Refuses place obstacle) :
    obstacle = .nameTooLong ∨ obstacle = .denied := by
  cases refuses with
  | length => exact .inl rfl
  | way _ blocks =>
      obtain ⟨_, _, _, denies, _⟩ := blocks
      cases denies with
      | closed => exact .inr rfl
      | longName => exact .inl rfl

/-- Where no directory is closed, what is refused is too long. -/
theorem Refuses.eq_nameTooLong (refuses : world.Refuses place obstacle)
    (isOpen : ∀ place, world.tree.isClosed place = false) : obstacle = .nameTooLong := by
  cases refuses with
  | length => rfl
  | way _ blocks =>
      obtain ⟨front, _, _, denies, _⟩ := blocks
      cases denies with
      | closed _ closed => cases closed.symm.trans (isOpen front)
      | longName => rfl

/-- **What is found anywhere in a tree.** -/
theorem find_cases (grounded : world.tree.GroundedAlong place.dropLast) (dots : ".." ∉ place)
    (plain : (Path.absolute place).holdsNull = false) :
    (∃ obstacle, world.Refuses place obstacle ∧
        world.find (.absolute place) = .error obstacle) ∨
      (∀ obstacle, ¬ world.Refuses place obstacle) ∧
        ((∃ entry, world.tree.at? place = some entry ∧ world.find (.absolute place) = .ok entry) ∨
          world.tree.at? place = none ∧ (world.find (.absolute place) = .error .missing ∨
            world.find (.absolute place) = .error .notDirectory)) := by
  by_cases long : maxPathLength < (Path.absolute place).display.utf8ByteSize
  · exact .inl ⟨.nameTooLong, .length long, find_of_long plain long⟩
  · rw [find_of_short plain long]
    rcases FileTree.follow_cases grounded dots with ⟨obstacle, blocks, followed⟩ | ⟨free, ways⟩
    · rw [followed]
      exact .inl ⟨obstacle, .way (Nat.not_lt.mp long) blocks, rfl⟩
    · refine .inr ⟨?_, ?_⟩
      · rintro _ (longer | ⟨-, blocks⟩)
        · exact long longer
        · exact free _ blocks
      · rcases ways with ⟨entry, here, followed⟩ | ⟨missing, followed⟩
        · exact .inl ⟨entry, here, by simp [followed, here]⟩
        · refine .inr ⟨missing, ?_⟩
          rcases followed with followed | followed <;> simp [followed]

/-- A look for a file is refused, or the tree tells what comes of it. -/
theorem isFile_cases (grounded : world.tree.GroundedAlong place.dropLast) (dots : ".." ∉ place)
    (plain : (Path.absolute place).holdsNull = false) :
    (∃ obstacle, world.Refuses place obstacle ∧
        world.isFile (.absolute place) = .error ⟨.absolute place, obstacle⟩) ∨
      (∀ obstacle, ¬ world.Refuses place obstacle) ∧
        ((∃ content, world.tree.at? place = some (.file content)) ∧
            world.isFile (.absolute place) = .ok true ∨
          (¬ ∃ content, world.tree.at? place = some (.file content)) ∧
            world.isFile (.absolute place) = .ok false) := by
  unfold isFile
  rcases find_cases grounded dots plain with
    ⟨obstacle, refuses, found⟩ | ⟨free, ⟨entry, here, found⟩ | ⟨missing, found⟩⟩
  · refine .inl ⟨obstacle, refuses, ?_⟩
    rw [found]
    rcases refuses.eq_or_eq with rfl | rfl <;> rfl
  · refine .inr ⟨free, ?_⟩
    rw [found, here]
    cases entry <;> simp
  · refine .inr ⟨free, .inr ⟨by simp [missing], ?_⟩⟩
    rcases found with found | found <;> rw [found]

/-- Every place above the working directory is a directory, so there is no entry below anything
else on the way to it. -/
theorem Stands.groundedAlong (stands : world.Stands) :
    world.tree.GroundedAlong world.workingDirectory :=
  fun front _ above other => absurd (stands.directory front above) other

end World

end DiceNotation
