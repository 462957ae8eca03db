import DiceNotation.Proofs.Evaluation.Course
import DiceNotation.Roll

/-!
# The draws of a table are the answers of its source

A table notes a draw between the answer of the source and the check of the sum that the draw enters.
So it could note too much or too little only if the two came apart. To compare them, the source is
made to write down its own answers (`Source.noted`). It then has written what the course draws
(`Expr.course_noted`), so after a roll of a notation its notes are the draws of the table, whether
the roll succeeds or fails, and all else is as without the notes (`rollDetailed_noted`).
-/

set_option autoImplicit false

namespace DiceNotation

variable {σ : Type}

/-- A source that writes down every number that it gives, with the greatest one that was asked
for. -/
def Source.noted (source : Source σ) : Source (σ × List Draw) where
  request low high state :=
    match source.request low high state.1 with
    | (.ok value, next) => (.ok value, next, state.2 ++ [⟨high, value⟩])
    | (.error fault, next) => (.error fault, next, state.2)

/-- A course with its draws written behind some notes. -/
def Course.noted (notes : List Draw) (course : Course σ) : Course (σ × List Draw) :=
  { course with source := (course.source, notes ++ course.draws) }

theorem Course.request_noted (source : Source σ) (sides : Int) (state : σ) (notes : List Draw) :
    request source.noted sides (state, notes) = (request source sides state).noted notes := by
  unfold request Source.noted
  rcases answer : source.request 1 sides state with ⟨_ | _, _⟩ <;> simp [answer, noted]

/-- **A source that writes down its answers writes down the draws of the course.** -/
theorem Expr.course_noted (source : Source σ) (rules : Rules) (tree : Expr) (state : σ)
    (notes : List Draw) :
    tree.course source.noted rules (state, notes) =
      (tree.course source rules state).noted notes := by
  have taken : Course.Notes fun (_ : List Int) (draws : List Draw) => draws :=
    ⟨rfl, fun _ _ _ _ => rfl⟩
  exact tree.course_kept taken source source.noted (Course.request_noted source) rules state notes

/-- What an evaluation on a fresh table leaves if the source writes down its answers. -/
theorem Table.evaluate_noted (source : Source σ) (rules : Rules) (tree : Expr) (state : σ) :
    let played := (Table.mk state #[] #[]).evaluate source rules tree
    (Table.mk (state, []) #[] #[]).evaluate source.noted rules tree =
      (played.1, ⟨(played.2.source, played.2.draws.toList), played.2.rolls, played.2.draws⟩) := by
  simp [evaluate_eq, Expr.course_noted, Course.noted, after]

/-- **After a roll of a notation, the notes of the source are the draws of the table.** The outcome
and the table are as without the notes. -/
theorem rollDetailed_noted (source : Source σ) (state : σ) (limits : Limits) (text : String) :
    let rolled := rollDetailed source state limits text
    rollDetailed source.noted (state, []) limits text =
      ⟨rolled.outcome, ⟨(rolled.table.source, rolled.table.draws.toList), rolled.table.rolls,
        rolled.table.draws⟩⟩ := by
  simp only [rollDetailed, play]
  cases Expr.parse text limits.maxDepth with
  | error fault => rfl
  | ok tree =>
      simp only [Table.evaluate_noted]
      rcases (Table.mk state #[] #[]).evaluate source ⟨true, limits.maxDice⟩ tree with
        ⟨fault | total, left⟩ <;> rfl

/-- What the source has noted after a roll of a notation. -/
theorem notes_rollDetailed (source : Source σ) (state : σ) (limits : Limits) (text : String) :
    (rollDetailed source.noted (state, []) limits text).table.source.2 =
      (rollDetailed source state limits text).table.draws.toList :=
  congrArg (·.table.source.2) (rollDetailed_noted source state limits text)

end DiceNotation
