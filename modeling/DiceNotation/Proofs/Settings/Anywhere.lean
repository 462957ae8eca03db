import DiceNotation.Proofs.Settings.Search

/-!
# Searching from anywhere

In a tree as a system keeps it, a search from any start finds the nearest settings file of the place
where it starts (`findRoot_eq_iff`). That a path is refused is allowed for only once, before the
search starts. So a search does not end, although there is a settings file above its start, if the
parent of a start that is too long is itself too long (`refused_below_settings`). The same can come
of a directory that is closed.
-/

set_option autoImplicit false

namespace DiceNotation.Settings

variable {world : World} {start : Path}

/-- **A search finds the nearest settings file, whatever its start.**

The tree has no links. The search goes upwards from the place that its start means. If the start
leads to a file, or if the system refuses to look at it, it goes upwards from the place that the
parent of the start means. It ends in a directory exactly if this is the nearest one with a settings
file, and it ends without one exactly if there is none. A directory with the name of a settings file
is no settings file.

There are two exceptions. A start with the null character in it means no place. And the search is
refused if the system refuses to look at its first candidate, because its path or a name in it is
too long or because it is below a closed directory, whatever there is further up. -/
theorem findRoot_eq_iff (stands : world.Stands) (grounded : world.tree.Grounded) (start : Path) :
    let origin := searchStart world start
    let first := origin.resolve world.workingDirectory
    (StandsForParent world start ∧ origin = start.parent ∨
        ¬ StandsForParent world start ∧ origin = start) ∧
      (∀ found, findRoot world start = .ok (some found) ↔
        start.holdsNull = false ∧ (∀ obstacle, ¬ Refused world first obstacle) ∧
          IsNearest world first found) ∧
      (findRoot world start = .ok none ↔
        start.holdsNull = false ∧ (∀ obstacle, ¬ Refused world first obstacle) ∧
          ∀ place, place <+: first → ¬ Holds world place) ∧
      ∀ refusal, findRoot world start = .error refusal ↔
        start.holdsNull = true ∧ refusal = ⟨start, .nullCharacter⟩ ∨
          start.holdsNull = false ∧ ∃ obstacle, Refused world first obstacle ∧
            refusal = ⟨.absolute (first ++ [fileName]), obstacle⟩ := by
  intro origin first
  refine ⟨?_, ?_⟩
  · by_cases parent : StandsForParent world start
    · exact .inl ⟨parent, searchStart_of_standsForParent parent⟩
    · exact .inr ⟨parent, searchStart_of_not_standsForParent parent⟩
  · have ways := @findRoot_cases world start stands.plain (grounded.along _)
    rw [show firstPlace world start = first from rfl] at ways
    clear_value first
    rcases ways with ⟨null, ended⟩ |
      ⟨plain, ⟨obstacle, refused, ended⟩ | ⟨free, ⟨found, nearest, ended⟩ | ⟨missing, ended⟩⟩⟩
    · simp only [null, ended, reduceCtorEq, Bool.true_eq_false, Except.error.injEq, false_and,
        true_and, or_false, implies_true]
      exact fun _ => eq_comm
    · have some : ¬ ∀ obstacle, ¬ Refused world first obstacle := fun free => free _ refused
      simp only [plain, ended, some, reduceCtorEq, Bool.false_eq_true, Except.error.injEq,
        false_and, and_false, true_and, false_or, implies_true]
      refine fun refusal => ⟨fun same => ⟨obstacle, refused, same.symm⟩, ?_⟩
      rintro ⟨other, refused', rfl⟩
      rw [World.Refuses.unique refused refused']
    · have some : ∃ place, place <+: first ∧ Holds world place :=
        ⟨found, nearest.above, nearest.holds⟩
      have same (found' : List String) : found = found' ↔ IsNearest world first found' :=
        ⟨fun same => same ▸ nearest, nearest.unique⟩
      simp [plain, ended, free, some, same]
    · have none (found : List String) : ¬ IsNearest world first found :=
        fun nearest => missing found nearest.above nearest.holds
      simpa [plain, ended, free, none] using missing

/-- A world with a settings file in one directory, and a directory of that name in the one below. -/
def nestedWorld : World :=
  ⟨.ofFiles [(["games", fileName], "version = 1".toUTF8)] [["games", "dice", fileName]], ["games"]⟩

theorem stands_nestedWorld : nestedWorld.Stands where
  directory front above := by
    have above : front <+: [] ++ ["games"] := above
    rcases List.prefix_concat_iff.mp above with rfl | root
    · rfl
    · rw [List.prefix_nil.mp root]
      rfl
  dots := by simp [nestedWorld]
  plain := by cbv

/-- From a place that is missing, below the directory that is no settings file, up to the file. -/
theorem findRoot_of_missing_start :
    let start : Path := ⟨.relative, ["..", "games", "dice", "cups"]⟩
    nestedWorld.Stands ∧ nestedWorld.tree.Grounded ∧
      findRoot nestedWorld start = .ok (some ["games"]) ∧
      (∀ obstacle, ¬ Refused nestedWorld ["games", "dice", "cups"] obstacle) ∧
      IsNearest nestedWorld ["games", "dice", "cups"] ["games"] := by
  intro start
  have stands : nestedWorld.Stands := stands_nestedWorld
  have grounded : nestedWorld.tree.Grounded := FileTree.grounded_ofFiles (by simp [fileName])
  have found : findRoot nestedWorld start = .ok (some ["games"]) := by cbv
  have first : (searchStart nestedWorld start).resolve nestedWorld.workingDirectory =
      ["games", "dice", "cups"] := by cbv
  obtain ⟨-, whole, -⟩ := findRoot_eq_iff stands grounded start
  obtain ⟨-, short, nearest⟩ := (whole ["games"]).mp found
  rw [first] at short nearest
  exact ⟨stands, grounded, found, short, nearest⟩

section

variable {content : ByteArray} {long : String}

theorem grounded_worldOf : (worldOf content).tree.Grounded :=
  FileTree.grounded_ofFiles (by simp)

/-- A name that is too long stands in the way, and it can be looked at neither as a start nor on the
way up. -/
theorem findRoot_below_long_name (size : maxNameLength < long.utf8ByteSize)
    (plain : '\x00' ∉ long.toList) (named : long ≠ "..") :
    let start : Path := ⟨.relative, [long, "y"]⟩
    StandsForParent (worldOf content) start ∧
      start.parent.resolve (worldOf content).workingDirectory = ["games", long] ∧
      IsNearest (worldOf content) ["games", long] ["games"] ∧
      findRoot (worldOf content) start =
        .error ⟨.absolute ["games", long, fileName], .nameTooLong⟩ := by
  intro start
  have startPlain : start.holdsNull = false := by
    simp [start, Path.holdsNull, plain]
  have parent : StandsForParent (worldOf content) start := by
    refine .inr (.inl ?_)
    have other : (long == "..") = false := beq_false_of_ne named
    have inGames : (worldOf content).tree.at? (worldOf content).workingDirectory =
        some .directory := rfl
    have isOpen : (worldOf content).tree.isClosed (worldOf content).workingDirectory = false := rfl
    have stopped : (worldOf content).tree.follow (worldOf content).workingDirectory [long, "y"] =
        .error .nameTooLong := by
      simp [FileTree.follow, FileTree.enter, inGames, isOpen, other, size]
    unfold World.find
    rw [startPlain, if_neg Bool.false_ne_true]
    split
    · rfl
    · simp only [start, stopped]
  have here : start.parent.resolve (worldOf content).workingDirectory = ["games", long] := by
    have dots : ".." ∉ ["games", long] := by simp [named.symm]
    exact Path.removeDots_eq_self dots
  have missing : ¬ Holds (worldOf content) (["games"] ++ [long]) := by
    rintro ⟨other, there⟩
    simp [worldOf, FileTree.at?, FileTree.ofFiles, List.lookup] at there
  refine ⟨parent, here, (IsNearest.here ⟨content, rfl⟩).up missing, ?_⟩
  have denies : (worldOf content).tree.Denies ["games"] long .nameTooLong := .longName rfl rfl size
  obtain ⟨obstacle, blocks⟩ := FileTree.exists_blocks_iff.mpr
    ⟨["games"], long, .nameTooLong, List.prefix_append ["games", long] [fileName], denies⟩
  obtain ⟨other, refused⟩ : ∃ obstacle, Refused (worldOf content) ["games", long] obstacle :=
    World.exists_refuses_of_blocks blocks
  have first : firstPlace (worldOf content) start = ["games", long] := by
    rw [firstPlace, searchStart_of_standsForParent parent, here]
  rcases @findRoot_cases _ start (stands_worldOf content).plain (grounded_worldOf.along _) with
    ⟨null, -⟩ | ⟨-, ⟨obstacle, refused', ended⟩ | ⟨free, -⟩⟩
  · cases startPlain.symm.trans null
  · rw [ended, first, refused'.eq_nameTooLong fun _ => rfl]
    rfl
  · rw [first] at free
    exact absurd refused (free other)

end

/-- **A search can be refused below a settings file.** The start is too long to be looked at, which
is allowed for, but so is its parent. -/
theorem refused_below_settings :
    let world := worldOf "version = 1\n".toUTF8
    let long := String.ofList (List.replicate 256 'x')
    let start : Path := ⟨.relative, [long, "y"]⟩
    world.Stands ∧ world.tree.Grounded ∧ StandsForParent world start ∧
      start.parent.resolve world.workingDirectory = ["games", long] ∧
      IsNearest world ["games", long] ["games"] ∧
      findRoot world start =
        .error ⟨.absolute ["games", long, fileName], .nameTooLong⟩ := by
  intro world long start
  have size : long.utf8ByteSize = 256 := by decide +kernel
  have plain : '\x00' ∉ long.toList := by
    rw [String.toList_ofList, List.mem_replicate]
    decide
  have named : long ≠ ".." := by
    intro same
    rw [same] at size
    cases size
  have longer : maxNameLength < long.utf8ByteSize := by
    rw [size]
    decide
  exact ⟨stands_worldOf _, grounded_worldOf, findRoot_below_long_name longer plain named⟩

end DiceNotation.Settings
