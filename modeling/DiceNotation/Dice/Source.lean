import DiceNotation.Fault

/-!
# Sources of random numbers

An evaluation asks a source for numbers between two bounds. A source is a state machine: a request
either answers or fails, and in both cases leaves the next state. Nothing is assumed of it; a
source that answers within the bounds is called fair.

A replay is the source that gives back a fixed sequence. A value that does not fit the bounds is
used up but not counted as accepted, and an empty sequence fails again and again.
-/

set_option autoImplicit false

namespace DiceNotation

/-- A source of numbers over the states `σ`. -/
structure Source (σ : Type) where
  /-- Asks for a number from `low` to `high`, both included. -/
  request : (low high : Int) → σ → Except Fault Int × σ

namespace Source

/-- Every answer of the source lies within the bounds of its request. -/
def Fair {σ : Type} (source : Source σ) : Prop :=
  ∀ (low high value : Int) (state : σ), low ≤ high →
    (source.request low high state).1 = .ok value → low ≤ value ∧ value ≤ high

end Source

/-- A sequence that is given back in order. -/
structure Replay where
  values : List Int
  accepted : Nat := 0
deriving DecidableEq

namespace Replay

/-- Takes the next value of a sequence. -/
def request (low high : Int) (replay : Replay) : Except Fault Int × Replay :=
  match replay.values with
  | [] => (.error (.exhausted replay.accepted), replay)
  | value :: rest =>
    if low ≤ value ∧ value ≤ high then (.ok value, ⟨rest, replay.accepted + 1⟩)
    else (.error (Fault.drawOutOfRange value low high).told, ⟨rest, replay.accepted⟩)

/-- The source that gives back a sequence. -/
def source : Source Replay :=
  ⟨request⟩

/-- A replay answers within the bounds. -/
theorem fair_source : source.Fair := by
  intro low high value replay _ answer
  simp only [source, request] at answer
  split at answer
  · cases answer
  · split at answer
    · cases answer
      assumption
    · cases answer

end Replay

end DiceNotation
