import DiceNotation.Proofs.Evaluation.Course
import DiceNotation.Proofs.Reading.Joining

/-!
# Adding notations

Two notations with a plus between them add. They are read as the first expression added to the first
term of the second (`Expr.joined`), which groups the terms of the second anew. So the partial sums
are other ones, and one of them may be out of range although no partial sum of the two notations is.
Nothing else changes: the requests, the draws and the rolls are those of the first notation and then
those of the second, and the total is the sum of their totals (`Expr.adds_joined`).

The induction goes along the first operands of the second expression, and one step of it puts a sign
and a right operand behind what has been added (`Course.isOrOverflows_operate`).
-/

set_option autoImplicit false

namespace DiceNotation

variable {σ : Type}

/-! ## Courses that add -/

namespace Course

/-- A course with another total. -/
def withTotal (total : Int) (course : Course σ) : Course σ :=
  { course with outcome := .ok total }

theorem followedBy_assoc (first second third : Course σ) :
    (first.followedBy second).followedBy third = first.followedBy (second.followedBy third) := by
  simp [followedBy]

theorem followedBy_withTotal (first second : Course σ) (total : Int) :
    first.followedBy (second.withTotal total) = (first.followedBy second).withTotal total :=
  rfl

theorem followedBy_done (course : Course σ) (total : Int) :
    course.followedBy (done total course.source) = course.withTotal total := by
  simp [followedBy, done, withTotal]

theorem eq_of_result_eq_ok {value total : Int} {state : σ}
    (ended : (result value state).outcome = .ok total) :
    value = total ∧ result value state = done value state := by
  by_cases holds : Word.Holds value
  · rw [result_of_holds holds] at ended ⊢
    exact ⟨Except.ok.inj ended, rfl⟩
  · rw [result_of_not_holds holds] at ended
    cases ended

/-- A value, and then another behind it, and the result of the two. -/
def operate (operation : Int → Int → Int) (left : Course σ) (right : σ → Course σ) : Course σ :=
  left.andThen fun first state => (right state).andThen fun second =>
    result (operation first second)

variable {operation : Int → Int → Int} {left : Course σ} {right : σ → Course σ}

/-- An operation that succeeds is its two operands with the result as total. -/
theorem exists_of_operate_eq_ok {total : Int}
    (ended : (operate operation left right).outcome = .ok total) :
    ∃ first second, left.outcome = .ok first ∧ (right left.source).outcome = .ok second ∧
      operation first second = total ∧
        operate operation left right = (left.followedBy (right left.source)).withTotal total := by
  obtain ⟨first, begun, rest⟩ := exists_of_andThen_eq_ok ended
  obtain ⟨second, continued, last⟩ := exists_of_andThen_eq_ok rest
  obtain ⟨rfl, same⟩ := eq_of_result_eq_ok last
  refine ⟨first, second, begun, continued, rfl, ?_⟩
  rw [operate, andThen_of_ok begun, andThen_of_ok continued, same, followedBy_done,
    followedBy_withTotal]

/-- A course stops at a result out of range, or is the one that is expected. -/
def IsOrOverflows (course expected : Course σ) : Prop :=
  (∃ value, ¬ Word.Holds value ∧ course.outcome = .error (.overflow value)) ∨ course = expected

/-- An operation on operands that succeed has their result as total, unless that is out of range. -/
theorem operate_of_ok {first second : Int} (begun : left.outcome = .ok first)
    (continued : (right left.source).outcome = .ok second) :
    (operate operation left right).IsOrOverflows
      ((left.followedBy (right left.source)).withTotal (operation first second)) := by
  rw [operate, andThen_of_ok begun, andThen_of_ok continued]
  by_cases holds : Word.Holds (operation first second)
  · right
    rw [result_of_holds holds, followedBy_done, followedBy_withTotal]
  · left
    rw [result_of_not_holds holds]
    exact ⟨_, holds, rfl⟩

/-- **One operation more behind a course that adds.** What has been added in front stays added if
the operation takes it along. -/
theorem isOrOverflows_operate {course first : Course σ} {offset total : Int}
    (operation : Int → Int → Int) (right : σ → Course σ)
    (adds : ∀ {value : Int}, left.outcome = .ok value →
      course.IsOrOverflows ((first.followedBy left).withTotal (offset + value)))
    (along : ∀ value second, operation (offset + value) second = offset + operation value second)
    (ended : (operate operation left right).outcome = .ok total) :
    (operate operation course right).IsOrOverflows
      ((first.followedBy (operate operation left right)).withTotal (offset + total)) := by
  obtain ⟨value, second, begun, continued, rfl, same⟩ := exists_of_operate_eq_ok ended
  rcases adds begun with ⟨other, outside, stops⟩ | rfl
  · left
    rw [operate, andThen_of_error stops]
    exact ⟨other, outside, stops⟩
  · rw [same, followedBy_withTotal, ← along, ← followedBy_assoc]
    exact operate_of_ok rfl continued

end Course

/-- **A joined expression adds.** Its course is that of the first expression and then that of the
second, with the sum of their totals, unless a sum is out of range. -/
theorem Expr.adds_joined {source : Source σ} {rules : Rules} {front : Expr} {state : σ}
    {first : Int} (begun : (front.course source rules state).outcome = .ok first) (back : Expr) :
    let before := front.course source rules state
    let behind := back.course source rules before.source
    ∀ {second : Int}, behind.outcome = .ok second →
      ((front.joined back).course source rules state).IsOrOverflows
        ((before.followedBy behind).withTotal (first + second)) := by
  induction back using sum_induction with
  | term term =>
      intro _ _ second ended
      rw [joined_of_isTerm term]
      exact Course.operate_of_ok begun ended
  | @add left right ih =>
      intro _ _ total ended
      exact Course.isOrOverflows_operate (· + ·) (right.course source rules) ih
        (fun _ _ => Int.add_assoc ..) ended
  | @subtract left right ih =>
      intro _ _ total ended
      exact Course.isOrOverflows_operate (· - ·) (right.course source rules) ih
        (fun _ _ => Int.add_sub_assoc ..) ended

/-! ## The main statement -/

/-- **Notations with a plus between them add.** If two texts are read, then the texts with a plus
between them are read as the first expression joined with the second, as long as there is a level
more than the first term of the second expression needs, and otherwise nest too deep. Let the first
expression be evaluated, and the second from the state of the source that the first has left. If
both succeed, then evaluating the joined expression comes to the sum of the two totals, with the
rolls and the draws of the first and then those of the second, and leaves the source as the second
has left it. The only fault that it can come to instead is that a sum is out of range. -/
theorem joining_adds :
    (∀ (text text' : String) (limit : DepthLimit) (front back : Expr),
      Expr.parse text limit = .ok front → Expr.parse text' limit = .ok back →
        (back.firstTerm.need < limit.levels →
          Expr.parse (text ++ "+" ++ text') limit = .ok (front.joined back)) ∧
        (limit.levels ≤ back.firstTerm.need → ∃ found,
          Expr.parse (text ++ "+" ++ text') limit =
            .error (.nestingTooDeep found limit.levels))) ∧
    ∀ (σ : Type) (source : Source σ) (rules : Rules) (front back : Expr) (state : σ)
      (first second : Int) (after after' : Table σ),
      (Table.mk state #[] #[]).evaluate source rules front = (.ok first, after) →
      (Table.mk after.source #[] #[]).evaluate source rules back = (.ok second, after') →
        let joined := (Table.mk state #[] #[]).evaluate source rules (front.joined back)
        (∀ total left, joined = (.ok total, left) → total = first + second ∧
          left = ⟨after'.source, after.rolls ++ after'.rolls, after.draws ++ after'.draws⟩) ∧
        ∀ fault, joined.1 = .error fault →
          ∃ sum, ¬ Word.Holds sum ∧ fault = (Halt.overflow sum).reported := by
  refine ⟨fun _ _ _ _ _ => Expr.parse_join, ?_⟩
  intro σ source rules front back state first second after after' evaluated evaluated' joined
  obtain ⟨begun, rfl⟩ := Table.evaluate_eq_ok_iff.mp evaluated
  obtain ⟨continued, rfl⟩ := Table.evaluate_eq_ok_iff.mp evaluated'
  have adds := Expr.adds_joined begun back continued
  simp only [joined, Table.evaluate_eq]
  rcases adds with ⟨sum, outside, stops⟩ | same
  · rw [stops]
    refine ⟨fun _ _ impossible => (nomatch impossible), fun fault same => ?_⟩
    exact ⟨sum, outside, (Except.error.inj same).symm⟩
  · rw [same]
    refine ⟨?_, fun _ impossible => (nomatch impossible)⟩
    rintro _ _ ⟨⟩
    simp [Table.after, Course.withTotal, Course.followedBy]

/-- A roll and a signed roll, with blanks around the plus, add. With three levels, which are enough
for each of the two, they nest too deep. -/
theorem joining_adds_of_signed_roll :
    let front := Expr.binary (.roll false) (.literal 2) (.literal 6)
    let term := Expr.unary .negate (.die (.literal 4))
    let back := Expr.binary .subtract term (.literal 1)
    let narrow : DepthLimit := ⟨3, by decide⟩
    let rules := Rules.mk true (some 2)
    let table := Table.mk (Replay.mk [3, 5, 2] 0) #[] #[]
    let after := Table.mk (Replay.mk [2] 2) #[⟨2, 6, [3, 5]⟩] #[⟨6, 3⟩, ⟨6, 5⟩]
    let after' := Table.mk (Replay.mk [] 3) #[⟨1, 4, [2]⟩] #[⟨4, 2⟩]
    let joined := Expr.binary .subtract (.binary .add front term) (.literal 1)
    Expr.parse "2d6 " = .ok front ∧ Expr.parse " -d4 - 1" = .ok back ∧
      Expr.parse ("2d6 " ++ "+" ++ " -d4 - 1") = .ok joined ∧
      (∃ found, Expr.parse ("2d6 " ++ "+" ++ " -d4 - 1") narrow =
        .error (.nestingTooDeep found 3)) ∧
      table.evaluate Replay.source rules front = (.ok 8, after) ∧
      (Table.mk after.source #[] #[]).evaluate Replay.source rules back = (.ok (-3), after') ∧
      table.evaluate Replay.source rules joined =
        (.ok 5, ⟨after'.source, after.rolls ++ after'.rolls, after.draws ++ after'.draws⟩) := by
  intro front term back narrow rules table after after' joined
  obtain ⟨texts, evaluations⟩ := joining_adds
  have readFront : Expr.parse "2d6 " = .ok front := by cbv
  have readBack : Expr.parse " -d4 - 1" = .ok back := by cbv
  have narrowFront : Expr.parse "2d6 " narrow = .ok front := by cbv
  have narrowBack : Expr.parse " -d4 - 1" narrow = .ok back := by cbv
  have first : table.evaluate Replay.source rules front = (.ok 8, after) := by
    rw [Table.evaluate_eq]
    cbv
  have second : (Table.mk after.source #[] #[]).evaluate Replay.source rules back =
      (.ok (-3), after') := by
    rw [Table.evaluate_eq]
    cbv
  have ended : (table.evaluate Replay.source rules joined).1 = .ok 5 := by
    rw [Table.evaluate_eq]
    cbv
  obtain ⟨-, left⟩ := (evaluations _ _ _ _ _ _ _ _ _ _ first second).1 5 _ (Prod.ext ended rfl)
  refine ⟨readFront, readBack, (texts _ _ _ _ _ readFront readBack).1 (by decide),
    (texts _ _ _ _ _ narrowFront narrowBack).2 (by decide), first, second, ?_⟩
  exact Prod.ext ended left

end DiceNotation
