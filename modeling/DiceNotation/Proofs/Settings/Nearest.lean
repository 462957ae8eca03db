import DiceNotation.Files.Tree
import DiceNotation.Settings.Discovery
import Mathlib

/-!
# The nearest settings file

A search for a settings file looks into one directory after the other, on the way up from the place
where it starts. It finds the nearest one: the deepest directory above this place, the place
included, that holds a file with the name of a settings file (`IsNearest`). It ends without one only
if there is none, provided that each look tells what the tree holds (`climb_cases_of_looks`).
-/

set_option autoImplicit false

namespace DiceNotation

/-- There is a file at a place of the tree. -/
def World.HoldsFile (world : World) (place : List String) : Prop :=
  ∃ content, world.tree.at? place = some (.file content)

namespace Settings

variable {world : World} {place : List String}

/-- There is a file with the name of a settings file in a directory. -/
def Holds (world : World) (place : List String) : Prop :=
  world.HoldsFile (place ++ [fileName])

/-- A directory is the nearest one with a settings file, from a place upwards. -/
structure IsNearest (world : World) (start place : List String) : Prop where
  above : place <+: start
  holds : Holds world place
  nearest : ∀ other, other <+: start → place.length < other.length → ¬ Holds world other

/-- A look at the candidate of a directory tells whether there is a settings file. -/
def LookTells (world : World) (place : List String) : Prop :=
  (world.isFile (.absolute (place ++ [fileName])) = .ok true ∧ Holds world place) ∨
    (world.isFile (.absolute (place ++ [fileName])) = .ok false ∧ ¬ Holds world place)

/-- A directory with a settings file is the nearest one from itself. -/
theorem IsNearest.here (holds : Holds world place) : IsNearest world place place :=
  ⟨List.prefix_rfl, holds, fun _ above longer => absurd longer (Nat.not_lt.mpr above.length_le)⟩

/-- The nearest directory from the one above is the nearest one, if there is no settings file here.
-/
theorem IsNearest.up {front found : List String} {name : String}
    (nearest : IsNearest world front found) (missing : ¬ Holds world (front ++ [name])) :
    IsNearest world (front ++ [name]) found where
  above := nearest.above.trans (List.prefix_append ..)
  holds := nearest.holds
  nearest other above longer := by
    rcases List.prefix_concat_iff.mp above with rfl | higher
    · exact missing
    · exact nearest.nearest other higher longer

/-- There is only one nearest directory. -/
theorem IsNearest.unique {first found found' : List String} (nearest : IsNearest world first found)
    (nearest' : IsNearest world first found') : found = found' := by
  have least := Nat.not_lt.mp fun longer => nearest.nearest _ nearest'.above longer nearest'.holds
  have least' := Nat.not_lt.mp fun longer => nearest'.nearest _ nearest.above longer nearest.holds
  exact (List.prefix_of_prefix_length_le nearest.above nearest'.above least').eq_of_length
    (Nat.le_antisymm least' least)

/-- **Climbing finds the nearest directory with a settings file**, or there is none, provided that
no look on the way is refused. -/
theorem climb_cases_of_looks (tells : ∀ other, other <+: place → LookTells world other) :
    (∃ found, IsNearest world place found ∧ climb world place.reverse = .ok (some found)) ∨
      (∀ other, other <+: place → ¬ Holds world other) ∧ climb world place.reverse = .ok none := by
  induction place using List.reverseRecOn with
  | nil =>
      rw [List.reverse_nil, climb]
      rcases tells [] List.prefix_rfl with ⟨looked, holds⟩ | ⟨looked, missing⟩
      · rw [List.nil_append] at looked
        rw [looked]
        exact .inl ⟨[], .here holds, rfl⟩
      · rw [List.nil_append] at looked
        rw [looked]
        refine .inr ⟨fun other empty => ?_, rfl⟩
        rwa [List.prefix_nil.mp empty]
  | append_singleton front name ih =>
      rw [List.reverse_append, List.reverse_singleton, List.singleton_append, climb]
      simp only [List.reverse_cons, List.reverse_reverse]
      rcases tells (front ++ [name]) List.prefix_rfl with ⟨looked, holds⟩ | ⟨looked, missing⟩
      · rw [looked]
        exact .inl ⟨_, .here holds, rfl⟩
      · rw [looked]
        rcases ih fun other higher => tells other (higher.trans (List.prefix_append ..)) with
          ⟨found, nearest, climbed⟩ | ⟨none, climbed⟩
        · exact .inl ⟨found, nearest.up missing, climbed⟩
        · refine .inr ⟨fun other higher => ?_, climbed⟩
          rcases List.prefix_concat_iff.mp higher with rfl | higher
          · exact missing
          · exact none other higher

/-- Climbing is refused at once if the first look is. -/
theorem climb_of_isFile {refusal : Refusal}
    (looked : world.isFile (.absolute (place ++ [fileName])) = .error refusal) :
    climb world place.reverse = .error refusal := by
  cases place using List.reverseRecOn with
  | nil =>
      rw [List.nil_append] at looked
      rw [List.reverse_nil, climb, looked]
      rfl
  | append_singleton front name =>
      rw [List.reverse_append, List.reverse_singleton, List.singleton_append, climb]
      simp only [List.reverse_cons, List.reverse_reverse, looked]

end Settings

end DiceNotation
