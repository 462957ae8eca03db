import DiceNotation.Proofs.Evaluation.Trails
import DiceNotation.Roll

/-!
# The limit of dice

An evaluation reaches a roll if nothing stops it before the number of dice and the number of sides
are known. The rolls reached are listed by their numbers of dice, in the order in which they are
reached (`Expr.reached`). These are the numbers of dice of the arrivals of its trail
(`Expr.counts_trail`), so what a limit does to a trail it does to a roll of a notation: if no roll
that is reached has too many dice, the limit makes no difference, and else the roll ends in the
refusal of the first that has (`rollDetailed_keepsLimit`).

A roll of less than one die never breaks a limit. It is refused in any case, and before its number
of dice is compared with the limit.
-/

set_option autoImplicit false

namespace DiceNotation

variable {σ : Type}

/-! ## The rolls reached -/

/-- What a course leads to behind its value, if it does not stop. -/
def Course.onward (course : Course σ) (next : Int → σ → List Int) : List Int :=
  match course.outcome with
  | .error _ => []
  | .ok value => next value course.source

/-- The numbers of dice of the rolls that the course of an expression reaches. -/
def Expr.reached (source : Source σ) (rules : Rules) : Expr → σ → List Int
  | literal _ => fun _ => []
  | unary _ operand => operand.reached source rules
  | binary operation left right => fun state =>
    left.reached source rules state ++
      (left.course source rules state).onward fun first state =>
        right.reached source rules state ++
          (right.course source rules state).onward fun _ _ =>
            match operation with
            | .roll _ => [first]
            | _ => []

theorem Course.onward_nil (course : Course σ) : course.onward (fun _ _ => []) = [] := by
  unfold onward
  split <;> rfl

/-- A trail that goes on reaches the rolls of its parts, as the course that it follows does. -/
theorem Trail.counts_andThen {trail : Trail σ} {table : Table σ} {course : Course σ}
    {next : Int → Table σ → Trail σ} {behind : Int → σ → List Int}
    (follows : trail.played = (course.outcome.mapError Halt.reported, table.after course))
    (later : ∀ value table, (next value table).arrivals.map Arrival.count =
      behind value table.source) :
    (trail.andThen next).arrivals.map Arrival.count =
      trail.arrivals.map Arrival.count ++ course.onward behind := by
  unfold Course.onward
  cases ended : course.outcome with
  | error halt =>
      rw [ended] at follows
      rw [andThen_of_error follows, List.append_nil]
  | ok value =>
      rw [ended] at follows
      rw [andThen_of_ok follows, List.map_append, later]
      rfl

/-- **The rolls that a course reaches are those of the trail.** -/
theorem Expr.counts_trail (source : Source σ) (rules : Rules) (tree : Expr) :
    ∀ table : Table σ, (tree.trail source rules table).arrivals.map Arrival.count =
      tree.reached source rules table.source := by
  have follows (tree : Expr) (table : Table σ) :=
    (tree.played_trail source rules table).trans (table.evaluate_eq source rules tree)
  induction tree with
  | literal value => exact fun _ => rfl
  | unary sign operand ih =>
      intro table
      let silent : Int → σ → List Int := fun _ _ => []
      have alone := Trail.counts_andThen (follows operand table)
        (show ∀ value table, (Trail.node source rules (.unary sign value) table).arrivals.map
          Arrival.count = silent value table.source from fun _ _ => rfl)
      rw [trail, alone, Course.onward_nil, List.append_nil]
      exact ih table
  | binary operation left right ihLeft ihRight =>
      intro table
      rw [trail, Trail.counts_andThen (follows left table), ihLeft]
      · rfl
      · intro first table
        rw [Trail.counts_andThen (follows right table), ihRight]
        intro second table
        cases operation <;> rfl

/-! ## Rolls of a notation -/

/-- The numbers of dice of the rolls that a notation reaches if there is no limit of dice. A
notation that cannot be read reaches none. -/
def reachedRolls (source : Source σ) (state : σ) (maxDepth : DepthLimit) (text : String) :
    List Int :=
  match Expr.parse text maxDepth with
  | .error _ => []
  | .ok tree => tree.reached source ⟨true, none⟩ state

/-- **A roll under a limit is the roll without it** unless it reaches too many dice at once. Then it
ends in the refusal of the first roll that has too many. -/
theorem rollDetailed_keepsLimit (source : Source σ) (state : σ) (maxDepth : DepthLimit)
    (limit : Int) (text : String) :
    match (reachedRolls source state maxDepth text).find? (breaksLimit limit) with
    | none => rollDetailed source state ⟨some limit, maxDepth⟩ text =
        rollDetailed source state ⟨none, maxDepth⟩ text
    | some count => (rollDetailed source state ⟨some limit, maxDepth⟩ text).outcome =
        .error (Fault.rollCount count (some limit)).told := by
  unfold reachedRolls rollDetailed play
  cases Expr.parse text maxDepth with
  | error fault => rfl
  | ok tree =>
      have limited := tree.trail_limited source true limit ⟨state, #[], #[]⟩
      have counts := tree.counts_trail source ⟨true, none⟩ ⟨state, #[], #[]⟩
      simp only [← Expr.played_trail, limited, ← counts]
      generalize tree.trail source ⟨true, none⟩ ⟨state, #[], #[]⟩ = trail
      rcases trail.kept_or_first limit with kept | ⟨before, arrival, behind, reached, kept, broken⟩
      · have unbroken : (trail.arrivals.map Arrival.count).find? (breaksLimit limit) = none := by
          rw [List.find?_map, List.find?_eq_none.mpr, Option.map_none]
          exact fun arrival member => by simp [kept arrival member]
        rw [unbroken, Trail.cut_of_forall_le kept]
      · have first : (trail.arrivals.map Arrival.count).find? (breaksLimit limit) =
            some arrival.count := by
          rw [List.find?_map, List.find?_eq_some_iff_append.mpr, Option.map_some]
          exact ⟨broken, before, behind, reached, by simpa using kept⟩
        rw [first, Trail.cut_of_first reached kept broken]
        rfl

/-- A limit that no roll reached breaks makes no difference to a roll of a notation. -/
theorem rollDetailed_eq_of_forall_le {source : Source σ} {state : σ} {maxDepth : DepthLimit}
    {limit : Int} {text : String}
    (kept : ∀ count ∈ reachedRolls source state maxDepth text, count ≤ limit) :
    rollDetailed source state ⟨some limit, maxDepth⟩ text =
      rollDetailed source state ⟨none, maxDepth⟩ text := by
  have keeps := rollDetailed_keepsLimit source state maxDepth limit text
  have unbroken : (reachedRolls source state maxDepth text).find? (breaksLimit limit) = none := by
    rw [List.find?_eq_none]
    intro count member broken
    have within := kept count member
    have beyond := (breaksLimit_iff.mp broken).2
    omega
  rw [unbroken] at keeps
  exact keeps

/-- A limit that some roll reached breaks ends a roll of a notation in the refusal of such a
roll. -/
theorem rollDetailed_of_exists_lt {source : Source σ} {state : σ} {maxDepth : DepthLimit}
    {limit : Int} {text : String} (one : 0 ≤ limit)
    (broken : ∃ count ∈ reachedRolls source state maxDepth text, limit < count) :
    ∃ count ∈ reachedRolls source state maxDepth text, limit < count ∧
      (rollDetailed source state ⟨some limit, maxDepth⟩ text).outcome =
        .error (Fault.rollCount count (some limit)).told := by
  obtain ⟨many, member, beyond⟩ := broken
  have keeps := rollDetailed_keepsLimit source state maxDepth limit text
  cases first : (reachedRolls source state maxDepth text).find? (breaksLimit limit) with
  | none =>
      have unbroken := List.find?_eq_none.mp first many member
      exact absurd (breaksLimit_iff.mpr ⟨by omega, beyond⟩) unbroken
  | some count =>
      rw [first] at keeps
      exact ⟨count, List.mem_of_find?_eq_some first,
        (breaksLimit_iff.mp (List.find?_some first)).2, keeps⟩

end DiceNotation
