import DiceNotation.Proofs.Files.Grounded
import DiceNotation.Proofs.Settings.Loading
import DiceNotation.Proofs.Settings.Nearest

/-!
# Searching for a settings file

A search can start at any path. It looks first for the settings file of the place that the path
means or, if the path leads to a file or is refused, of the place that its parent means
(`StandsForParent`, `firstPlace`). The search asks for one candidate after the other, and it is
refused if a candidate is. This depends on the first one alone: the others begin with the same names
and have fewer of them, so what is refused further up is refused here (`Refused.of_isPrefix`). Hence
a search ends in one of four ways (`findRoot_cases`), and what it finds is a file
(`find_of_findRoot`).

A search for the settings of the working directory starts there, or in the directory above if the
system refuses to look at the working directory itself (`searchPlace_cases`).
-/

set_option autoImplicit false

namespace DiceNotation.Settings

variable {world : World} {place : List String} {start : Path} {obstacle : Obstacle}

theorem holdsNull_child {path : Path} (plain : path.holdsNull = false) :
    (path.child fileName).holdsNull = false := by
  have name : fileName.contains '\x00' = false := by cbv
  simp only [Path.holdsNull, Path.child, List.any_append, List.any_cons, List.any_nil, name,
    Bool.or_false]
  exact plain

/-! ## Candidates -/

/-- The system refuses to look at the candidate of a directory. -/
def Refused (world : World) (place : List String) (obstacle : Obstacle) : Prop :=
  world.Refuses (place ++ [fileName]) obstacle

/-- **What is refused further up is refused here.** -/
theorem Refused.of_isPrefix {other : List String} (refused : Refused world other obstacle)
    (above : other <+: place) : ∃ obstacle, Refused world place obstacle := by
  rcases refused with long | ⟨-, blocks⟩
  · have longer := Path.utf8ByteSize_display_le
      (above.sublist.append (List.Sublist.refl [fileName]))
    exact ⟨.nameTooLong, .length (long.trans_le longer)⟩
  · rcases FileTree.blocks_append_singleton.mp blocks with higher | ⟨-, denies⟩
    · exact World.exists_refuses_of_blocks
        (higher.of_isPrefix (above.trans (List.prefix_append ..)))
    · cases denies with
      | longName _ _ tooLong => exact absurd tooLong (by decide)
      | closed here closed =>
          -- a closed directory denies whatever name comes next
          obtain ⟨next, within⟩ : ∃ next, other ++ [next] <+: place ++ [fileName] := by
            obtain ⟨rest, rfl⟩ := above
            cases rest with
            | nil => exact ⟨fileName, by simp⟩
            | cons next rest => exact ⟨next, rest ++ [fileName], by simp⟩
          obtain ⟨obstacle, blocks⟩ := FileTree.exists_blocks_iff.mpr
            ⟨other, next, .denied, within, .closed here closed⟩
          exact World.exists_refuses_of_blocks blocks

/-- A look at the candidate of a directory is refused, or it tells whether there is a settings file.
-/
theorem isFile_candidate (grounded : world.tree.GroundedAlong place) (dots : ".." ∉ place)
    (plain : (Path.absolute place).holdsNull = false) :
    (∃ obstacle, Refused world place obstacle ∧
        world.isFile (.absolute (place ++ [fileName])) =
          .error ⟨.absolute (place ++ [fileName]), obstacle⟩) ∨
      (∀ obstacle, ¬ Refused world place obstacle) ∧ LookTells world place := by
  have named : ".." ∉ place ++ [fileName] := by simp [dots, fileName]
  have along : world.tree.GroundedAlong (place ++ [fileName]).dropLast := by
    rwa [List.dropLast_concat]
  rcases World.isFile_cases along named (holdsNull_child plain) with
    refused | ⟨free, ⟨holds, looked⟩ | ⟨missing, looked⟩⟩
  · exact .inl refused
  · exact .inr ⟨free, .inl ⟨looked, holds⟩⟩
  · exact .inr ⟨free, .inr ⟨looked, missing⟩⟩

/-- **Climbing from anywhere** is refused at the first candidate, or it finds the nearest directory
with a settings file, or there is none. -/
theorem climb_cases (grounded : world.tree.GroundedAlong place) (dots : ".." ∉ place)
    (plain : (Path.absolute place).holdsNull = false) :
    (∃ obstacle, Refused world place obstacle ∧ climb world place.reverse =
        .error ⟨.absolute (place ++ [fileName]), obstacle⟩) ∨
      (∀ obstacle, ¬ Refused world place obstacle) ∧
        ((∃ found, IsNearest world place found ∧ climb world place.reverse = .ok (some found)) ∨
          (∀ other, other <+: place → ¬ Holds world other) ∧
            climb world place.reverse = .ok none) := by
  rcases isFile_candidate grounded dots plain with ⟨obstacle, refused, looked⟩ | ⟨free, -⟩
  · exact .inl ⟨obstacle, refused, climb_of_isFile looked⟩
  · refine .inr ⟨free, climb_cases_of_looks fun other above => ?_⟩
    rw [Path.holdsNull_absolute] at plain
    have higher := Path.holdsNull_absolute.mpr fun part member => plain part (above.subset member)
    rcases isFile_candidate (grounded.of_isPrefix above) (fun member => dots (above.subset member))
      higher with ⟨obstacle, refused, -⟩ | ⟨-, tells⟩
    · obtain ⟨obstacle, refused⟩ := refused.of_isPrefix above
      exact absurd refused (free obstacle)
    · exact tells

/-! ## Starts -/

/-- A path that leads to a file, or that the system refuses, stands for its parent. -/
def StandsForParent (world : World) (start : Path) : Prop :=
  (∃ content, world.find start = .ok (.file content)) ∨
    world.find start = .error .nameTooLong ∨ world.find start = .error .denied

theorem searchStart_of_standsForParent (parent : StandsForParent world start) :
    searchStart world start = start.parent := by
  unfold searchStart World.isFile
  rcases parent with ⟨content, found⟩ | found | found <;> rw [found]

theorem searchStart_of_not_standsForParent (itself : ¬ StandsForParent world start) :
    searchStart world start = start := by
  unfold searchStart World.isFile
  cases found : world.find start with
  | ok entry =>
      cases entry with
      | file content => exact absurd (.inl ⟨content, found⟩) itself
      | directory => rfl
  | error obstacle =>
      cases obstacle with
      | nameTooLong => exact absurd (.inr (.inl found)) itself
      | denied => exact absurd (.inr (.inr found)) itself
      | missing | notDirectory | nullCharacter => rfl

theorem StandsForParent.plain (parent : StandsForParent world start) :
    start.holdsNull = false := by
  cases null : start.holdsNull with
  | false => rfl
  | true =>
      have found : world.find start = .error .nullCharacter := by
        unfold World.find
        rw [null, if_pos rfl]
      rcases parent with ⟨content, other⟩ | other | other <;> cases found.symm.trans other

/-- A search starts from a path with the null character in it only if it is given one. -/
theorem holdsNull_searchStart : (searchStart world start).holdsNull = start.holdsNull := by
  by_cases parent : StandsForParent world start
  · have plain := parent.plain
    rw [searchStart_of_standsForParent parent, plain]
    simp only [Path.holdsNull, List.any_eq_false] at plain ⊢
    exact fun part member => plain part (List.mem_of_mem_dropLast member)
  · rw [searchStart_of_not_standsForParent parent]

/-- The place whose candidate a search looks at first. -/
def firstPlace (world : World) (start : Path) : List String :=
  (searchStart world start).resolve world.workingDirectory

/-- **A search ends in one of four ways.** -/
theorem findRoot_cases (directory : (Path.absolute world.workingDirectory).holdsNull = false)
    (grounded : world.tree.GroundedAlong (firstPlace world start)) :
    (start.holdsNull = true ∧ findRoot world start = .error ⟨start, .nullCharacter⟩) ∨
      start.holdsNull = false ∧
        ((∃ obstacle, Refused world (firstPlace world start) obstacle ∧ findRoot world start =
            .error ⟨.absolute (firstPlace world start ++ [fileName]), obstacle⟩) ∨
          (∀ obstacle, ¬ Refused world (firstPlace world start) obstacle) ∧
            ((∃ found, IsNearest world (firstPlace world start) found ∧
                findRoot world start = .ok (some found)) ∨
              (∀ place, place <+: firstPlace world start → ¬ Holds world place) ∧
                findRoot world start = .ok none)) := by
  have same : (searchStart world start).holdsNull = start.holdsNull := holdsNull_searchStart
  cases null : start.holdsNull with
  | true =>
      have itself : searchStart world start = start :=
        searchStart_of_not_standsForParent fun parent => nomatch null.symm.trans parent.plain
      refine .inl ⟨rfl, ?_⟩
      simp only [findRoot, World.place, itself, null, if_true]
  | false =>
      have climbed : findRoot world start = climb world (firstPlace world start).reverse := by
        simp only [findRoot, World.place, same, null, firstPlace, Bool.false_eq_true, if_false]
      have dots : ".." ∉ firstPlace world start := Path.not_mem_removeDots _
      have plain : (Path.absolute (firstPlace world start)).holdsNull = false :=
        Path.holdsNull_resolve (same.trans null) directory
      rw [climbed]
      exact .inr ⟨rfl, climb_cases grounded dots plain⟩

theorem isFile_of_climb {names : List String} (found : climb world names = .ok (some place)) :
    world.isFile (.absolute (place ++ [fileName])) = .ok true := by
  induction names with
  | nil =>
      unfold climb at found
      cases looked : world.isFile (.absolute [fileName]) with
      | error refusal =>
          rw [looked] at found
          cases found
      | ok here =>
          rw [looked] at found
          cases here with
          | false => cases found
          | true =>
              cases found
              exact looked
  | cons name above ih =>
      unfold climb at found
      simp only at found
      split at found
      · cases found
      · rename_i looked
        cases found
        exact looked
      · exact ih found

/-- **What a search finds is a file.** -/
theorem find_of_findRoot {start : Path} (found : findRoot world start = .ok (some place)) :
    ∃ content, world.find (.absolute (place ++ [fileName])) = .ok (.file content) := by
  unfold findRoot at found
  split at found
  · cases found
  · have looked := isFile_of_climb found
    unfold World.isFile at looked
    split at looked
    · rename_i content there
      exact ⟨content, there⟩
    all_goals cases looked

/-! ## Searches from the working directory -/

/-- The place where a search for the settings of the working directory starts. -/
def searchPlace (world : World) : List String :=
  firstPlace world (.absolute world.workingDirectory)

/-- Such a search starts in the working directory, or in the directory above if the system refuses
to look at the working directory. -/
theorem searchPlace_cases (stands : world.Stands) :
    (∃ obstacle, world.Refuses world.workingDirectory obstacle) ∧
        searchPlace world = world.workingDirectory.dropLast ∨
      (∀ obstacle, ¬ world.Refuses world.workingDirectory obstacle) ∧
        searchPlace world = world.workingDirectory := by
  have here := stands.directory _ List.prefix_rfl
  have up : (Path.absolute world.workingDirectory).parent.resolve world.workingDirectory =
      world.workingDirectory.dropLast :=
    Path.removeDots_eq_self (stands.dots_of_isPrefix (List.dropLast_prefix _))
  have itself : (Path.absolute world.workingDirectory).resolve world.workingDirectory =
      world.workingDirectory :=
    Path.removeDots_eq_self stands.dots
  unfold searchPlace firstPlace
  rcases World.find_cases (stands.groundedAlong.of_isPrefix (List.dropLast_prefix _)) stands.dots
    stands.plain with ⟨obstacle, refuses, found⟩ | ⟨free, ⟨entry, there, found⟩ | ⟨missing, -⟩⟩
  · have parent : StandsForParent world (.absolute world.workingDirectory) := by
      rcases refuses.eq_or_eq with rfl | rfl
      · exact .inr (.inl found)
      · exact .inr (.inr found)
    rw [searchStart_of_standsForParent parent]
    exact .inl ⟨⟨obstacle, refuses⟩, up⟩
  · cases here.symm.trans there
    have other : ¬ StandsForParent world (.absolute world.workingDirectory) := by
      rintro (⟨content, file⟩ | long | denied)
      · cases found.symm.trans file
      · cases found.symm.trans long
      · cases found.symm.trans denied
    rw [searchStart_of_not_standsForParent other]
    exact .inr ⟨free, itself⟩
  · cases here.symm.trans missing

theorem searchPlace_isPrefix (stands : world.Stands) :
    searchPlace world <+: world.workingDirectory := by
  rcases searchPlace_cases stands with ⟨-, up⟩ | ⟨-, itself⟩
  · rw [up]
    exact List.dropLast_prefix _
  · rw [itself]

/-- **The file that is chosen if none is given is that of the nearest directory**, unless the search
is refused at its first candidate. -/
theorem chosenFile_cases (stands : world.Stands) :
    (∃ obstacle, Refused world (searchPlace world) obstacle ∧ chosenFile world none none =
        .error ⟨.absolute (searchPlace world ++ [fileName]), obstacle⟩) ∨
      (∀ obstacle, ¬ Refused world (searchPlace world) obstacle) ∧
        ((∃ found, IsNearest world (searchPlace world) found ∧
            chosenFile world none none = .ok (some (.absolute (found ++ [fileName])))) ∨
          (∀ place, place <+: searchPlace world → ¬ Holds world place) ∧
            chosenFile world none none = .ok none) := by
  have along := stands.groundedAlong.of_isPrefix (searchPlace_isPrefix stands)
  unfold chosenFile
  rcases findRoot_cases stands.plain along with
    ⟨null, -⟩ | ⟨-, ⟨obstacle, refused, ended⟩ | ⟨free, ⟨found, nearest, ended⟩ | ⟨none, ended⟩⟩⟩
  · cases null.symm.trans stands.plain
  · rw [ended]
    exact .inl ⟨obstacle, refused, rfl⟩
  · rw [ended]
    exact .inr ⟨free, .inl ⟨found, nearest, rfl⟩⟩
  · rw [ended]
    exact .inr ⟨free, .inr ⟨none, rfl⟩⟩

/-- The path of a file that a search has found can be followed. -/
theorem find_ne_nullCharacter_of_chosenFile {path : Path}
    (chosen : chosenFile world none none = .ok (some path)) :
    world.find path ≠ .error .nullCharacter := by
  unfold chosenFile at chosen
  cases search : findRoot world (.absolute world.workingDirectory) with
  | error refusal =>
      rw [search] at chosen
      cases chosen
  | ok place? =>
      rw [search] at chosen
      obtain ⟨place, rfl, rfl⟩ := Option.map_eq_some_iff.mp (Except.ok.inj chosen)
      obtain ⟨content, found⟩ := find_of_findRoot search
      rw [found]
      exact nofun

/-- The working directory of a world with one settings file exists. -/
theorem stands_worldOf (content : ByteArray) : (worldOf content).Stands where
  directory front above := by
    have above : front <+: [] ++ ["games"] := above
    rcases List.prefix_concat_iff.mp above with rfl | root
    · rfl
    · rw [List.prefix_nil.mp root]
      rfl
  dots := by simp [worldOf]
  plain := by cbv

end DiceNotation.Settings
