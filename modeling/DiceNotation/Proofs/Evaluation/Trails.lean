import DiceNotation.Proofs.Evaluation.Throws

/-!
# The rolls that an evaluation reaches

An evaluation reaches a roll when the number of dice and the number of sides have been computed and
nothing has failed until then. Whether the roll may begin is asked only after that. The trail of an
evaluation is what it leaves together with the rolls that it reaches, in order, each with its two
numbers and with the table on which it is reached (`Expr.trail`).

A limit of dice refuses the rolls of one die or more that have more dice than the limit, and it is
looked at nowhere but where a roll is reached. So the trail under a limit is the trail without it,
cut off where the first such roll is reached (`Expr.trail_limited`). The induction is on the
expression, and `Trail.cut_andThen` carries it: what comes behind a cut is not begun.

The main statement `limit_stops_first_excess` says this of a source that writes down what it is
asked, so that the requests are compared as well, and adds what follows for larger limits.
-/

set_option autoImplicit false

namespace DiceNotation

variable {σ : Type}

/-! ## Trails -/

/-- A roll that is reached, and the table on which it is reached. -/
structure Arrival (σ : Type) where
  count : Int
  sides : Int
  table : Table σ

/-- The rolls that an evaluation reaches, and what it leaves. -/
structure Trail (σ : Type) where
  arrivals : List (Arrival σ)
  played : Except Fault Int × Table σ

namespace Trail

/-- Goes on from the value and the table of an evaluation, unless it failed. -/
def andThen (trail : Trail σ) (next : Int → Table σ → Trail σ) : Trail σ :=
  match trail.played with
  | (.error _, _) => trail
  | (.ok value, table) =>
    let later := next value table
    ⟨trail.arrivals ++ later.arrivals, later.played⟩

/-- The trail of a node whose operands are evaluated: only a roll reaches one. -/
def node (source : Source σ) (rules : Rules) (layer : Layer Int) (table : Table σ) : Trail σ where
  arrivals :=
    match layer with
    | .binary (.roll _) count sides => [⟨count, sides, table⟩]
    | _ => []
  played := (Evaluation.combine source rules layer).on table

end Trail

/-- The trail of an expression: operands from left to right, then the node. -/
def Expr.trail (source : Source σ) (rules : Rules) : Expr → Table σ → Trail σ
  | literal value => Trail.node source rules (.literal value)
  | unary sign operand => fun table =>
    (operand.trail source rules table).andThen fun value table =>
      Trail.node source rules (.unary sign value) table
  | binary operation left right => fun table =>
    (left.trail source rules table).andThen fun first table =>
      (right.trail source rules table).andThen fun second table =>
        Trail.node source rules (.binary operation first second) table

namespace Trail

variable {trail : Trail σ} {next : Int → Table σ → Trail σ} {table : Table σ}

theorem andThen_of_error {fault : Fault} (failed : trail.played = (.error fault, table)) :
    trail.andThen next = trail := by
  rw [andThen, failed]

theorem andThen_of_ok {value : Int} (ended : trail.played = (.ok value, table)) :
    trail.andThen next =
      ⟨trail.arrivals ++ (next value table).arrivals, (next value table).played⟩ := by
  rw [andThen, ended]

/-- What a trail that goes on leaves. -/
theorem played_andThen (trail : Trail σ) (next : Int → Table σ → Trail σ) :
    (trail.andThen next).played =
      match trail.played with
      | (.ok value, table) => (next value table).played
      | (.error fault, table) => (.error fault, table) := by
  rcases ended : trail.played with ⟨fault | value, table⟩
  · rw [andThen_of_error ended, ended]
  · rw [andThen_of_ok ended]

end Trail

/-- **A trail leaves what the evaluation leaves.** -/
theorem Expr.played_trail (source : Source σ) (rules : Rules) (tree : Expr) :
    ∀ table : Table σ, (tree.trail source rules table).played =
      table.evaluate source rules tree := by
  simp only [Table.evaluate, Expr.evaluate, Expr.foldM_eq_recurse]
  induction tree with
  | literal value => exact fun _ => rfl
  | unary sign operand ih =>
      intro table
      rw [trail, Trail.played_andThen, ih, recurse, Play.on, Play.on, run_bind_eq_match]
      rcases (ExceptT.run (operand.recurse (Evaluation.combine source rules))).run table with
        ⟨fault | value, table⟩ <;> rfl
  | binary operation left right ihLeft ihRight =>
      intro table
      rw [trail, Trail.played_andThen, ihLeft, recurse, Play.on, Play.on, run_bind_eq_match]
      rcases (ExceptT.run (left.recurse (Evaluation.combine source rules))).run table with
        ⟨fault | first, table⟩
      · rfl
      · simp only [Trail.played_andThen, ihRight, Play.on, run_bind_eq_match]
        rcases (ExceptT.run (right.recurse (Evaluation.combine source rules))).run table with
          ⟨fault | second, table⟩ <;> rfl

/-! ## Trails under a limit -/

/-- A roll of so many dice is refused because of the limit. -/
def breaksLimit (limit count : Int) : Bool :=
  1 ≤ count && limit < count

theorem breaksLimit_iff {limit count : Int} :
    breaksLimit limit count = true ↔ 1 ≤ count ∧ limit < count := by
  rw [breaksLimit, Bool.and_eq_true, decide_eq_true_eq, decide_eq_true_eq]

theorem breaksLimit_eq_false_iff {limit count : Int} :
    breaksLimit limit count = false ↔ count < 1 ∨ count ≤ limit := by
  rw [← Bool.not_eq_true, breaksLimit_iff]
  omega

/-- The refusal of a roll by a limit can be told exactly if both numbers can be written. -/
theorem told_rollCount_iff {limit count : Int} (beyond : limit < count) :
    (Fault.rollCount count (some limit)).told = .rollCount count (some limit) ↔
      Text.isWritable count = true ∧ Text.isWritable limit = true := by
  rw [Fault.told_eq_self_iff]
  simp [Fault.isWritable, Fault.numbers, Fault.exceeds, beyond]

/-- A limit adds one refusal to those that keep a roll from its first draw. -/
theorem Evaluation.rollFault?_some_limit (record : Bool) (limit count sides : Int) :
    rollFault? ⟨record, some limit⟩ count sides =
      if breaksLimit limit count then some (.rollCount count (some limit))
      else rollFault? ⟨record, none⟩ count sides := by
  unfold rollFault? breaksLimit Fault.exceeds
  by_cases few : count < 1
  · have notOne : ¬ 1 ≤ count := by omega
    simp [few, notOne]
  · have one : 1 ≤ count := by omega
    simp [few, one]

namespace Trail

/-- A trail up to the first roll that the limit refuses, with the refusal; the whole trail if there
is no such roll. -/
def cut (limit : Int) (trail : Trail σ) : Trail σ :=
  match trail.arrivals.find? fun arrival => breaksLimit limit arrival.count with
  | none => trail
  | some arrival =>
    ⟨(trail.arrivals.takeWhile fun arrival => !breaksLimit limit arrival.count) ++ [arrival],
      .error (Fault.rollCount arrival.count (some limit)).told, arrival.table⟩

variable {limit : Int} {trail : Trail σ}

/-- A trail is not cut if no roll reached breaks the limit. -/
theorem cut_of_forall_le
    (kept : ∀ arrival ∈ trail.arrivals, breaksLimit limit arrival.count = false) :
    trail.cut limit = trail := by
  have none : (trail.arrivals.find? fun arrival => breaksLimit limit arrival.count) = .none :=
    List.find?_eq_none.mpr fun arrival member => by simp [kept arrival member]
  rw [cut, none]

/-- A trail is cut where the first roll that breaks the limit is reached. -/
theorem cut_of_first {before behind : List (Arrival σ)} {arrival : Arrival σ}
    (reached : trail.arrivals = before ++ arrival :: behind)
    (kept : ∀ earlier ∈ before, breaksLimit limit earlier.count = false)
    (broken : breaksLimit limit arrival.count = true) :
    trail.cut limit =
      ⟨before ++ [arrival], .error (Fault.rollCount arrival.count (some limit)).told,
        arrival.table⟩ := by
  have first : trail.arrivals.find? (fun arrival => breaksLimit limit arrival.count) =
      some arrival := by
    rw [reached, List.find?_append, List.find?_eq_none.mpr, Option.none_or,
      List.find?_cons_of_pos (by exact broken)]
    exact fun earlier member => by simp [kept earlier member]
  have taken : trail.arrivals.takeWhile (fun arrival => !breaksLimit limit arrival.count) =
      before := by
    rw [reached, List.takeWhile_append_of_pos, List.takeWhile_cons_of_neg, List.append_nil]
    · simp [broken]
    · exact fun earlier member => by simp [kept earlier member]
  rw [cut, first, taken]

/-- Every trail keeps the limit, or has a first roll that breaks it. -/
theorem kept_or_first (limit : Int) (trail : Trail σ) :
    (∀ arrival ∈ trail.arrivals, breaksLimit limit arrival.count = false) ∨
      ∃ before arrival behind, trail.arrivals = before ++ arrival :: behind ∧
        (∀ earlier ∈ before, breaksLimit limit earlier.count = false) ∧
          breaksLimit limit arrival.count = true := by
  rcases first : trail.arrivals.find? fun arrival => breaksLimit limit arrival.count with
    none | arrival
  · left
    intro arrival member
    exact Bool.eq_false_iff.mpr (List.find?_eq_none.mp first arrival member)
  · right
    obtain ⟨broken, before, behind, reached, kept⟩ := List.find?_eq_some_iff_append.mp first
    exact ⟨before, arrival, behind, reached, by simpa using kept, broken⟩

/-- **A trail that goes on is cut in its first part or in what follows.** -/
theorem cut_andThen (trail : Trail σ) (next : Int → Table σ → Trail σ) :
    (trail.andThen next).cut limit =
      (trail.cut limit).andThen fun value table => (next value table).cut limit := by
  rcases ended : trail.played with ⟨fault | value, table⟩
  · -- the first part fails, with or without a cut
    rw [andThen_of_error ended]
    rcases trail.kept_or_first limit with kept | ⟨before, arrival, behind, reached, kept, broken⟩
    · rw [cut_of_forall_le kept, andThen_of_error ended]
    · rw [cut_of_first reached kept broken]
      rfl
  · rw [andThen_of_ok ended]
    rcases trail.kept_or_first limit with kept | ⟨before, arrival, behind, reached, kept, broken⟩
    · rw [cut_of_forall_le kept, andThen_of_ok ended]
      rcases (next value table).kept_or_first limit with
        keptLater | ⟨before, arrival, behind, reached, keptLater, broken⟩
      · have keptBoth := List.forall_mem_append.mpr ⟨kept, keptLater⟩
        rw [cut_of_forall_le keptLater, cut_of_forall_le keptBoth]
      · have reachedBoth : trail.arrivals ++ (next value table).arrivals =
            (trail.arrivals ++ before) ++ arrival :: behind := by
          rw [reached, List.append_assoc]
        have keptBoth := List.forall_mem_append.mpr ⟨kept, keptLater⟩
        rw [cut_of_first reached keptLater broken, cut_of_first reachedBoth keptBoth broken,
          List.append_assoc]
    · have reachedBoth : trail.arrivals ++ (next value table).arrivals =
          before ++ arrival :: (behind ++ (next value table).arrivals) := by
        rw [reached, List.append_assoc, List.cons_append]
      rw [cut_of_first reached kept broken, cut_of_first reachedBoth kept broken]
      rfl

/-- **A node under a limit** is the node without it, cut before a roll that the limit refuses. -/
theorem node_limited (source : Source σ) (record : Bool) (limit : Int) (layer : Layer Int)
    (table : Table σ) :
    node source ⟨record, some limit⟩ layer table =
      (node source ⟨record, none⟩ layer table).cut limit := by
  match layer with
  | .literal _ | .unary .identity _ | .unary .negate _ | .binary .add _ _
  | .binary .subtract _ _ => rfl
  | .binary (.roll isImplicit) count sides =>
    have played : (node source ⟨record, some limit⟩ (.binary (.roll isImplicit) count sides)
        table).played = Evaluation.roll source ⟨record, some limit⟩ count sides table := rfl
    cases broken : breaksLimit limit count with
    | true =>
        rw [cut_of_first (List.nil_append _).symm (List.forall_mem_nil _) broken]
        unfold Evaluation.roll at played
        rw [Evaluation.rollFault?_some_limit, broken, if_pos rfl] at played
        exact congrArg (mk _) played
    | false =>
        have kept : ∀ arrival ∈ [Arrival.mk count sides table],
            breaksLimit limit arrival.count = false :=
          List.forall_mem_singleton.mpr broken
        rw [cut_of_forall_le kept]
        unfold Evaluation.roll at played
        rw [Evaluation.rollFault?_some_limit, broken, if_neg Bool.false_ne_true] at played
        exact congrArg (mk _) played

end Trail

/-- **The trail under a limit is the trail without it, cut at the first roll that the limit
refuses.** -/
theorem Expr.trail_limited (source : Source σ) (record : Bool) (limit : Int) (tree : Expr) :
    ∀ table : Table σ, tree.trail source ⟨record, some limit⟩ table =
      (tree.trail source ⟨record, none⟩ table).cut limit := by
  induction tree with
  | literal value => exact Trail.node_limited source record limit (.literal value)
  | unary sign operand ih =>
      intro table
      simp only [trail, Trail.cut_andThen, ih, Trail.node_limited source record limit]
  | binary operation left right ihLeft ihRight =>
      intro table
      simp only [trail, Trail.cut_andThen, ihLeft, ihRight, Trail.node_limited source record limit]

/-! ## Tables on the way -/

/-- A table is on the way to another one: what has been asked, drawn and recorded is the beginning
of what has been asked, drawn and recorded in the end. -/
structure Table.Precedes (table last : Table (σ × List (Int × Int))) : Prop where
  asked : table.source.2 <+: last.source.2
  draws : table.draws.toList <+: last.draws.toList
  rolls : table.rolls.toList <+: last.rolls.toList

namespace Table.Precedes

variable {table next last : Table (σ × List (Int × Int))}

theorem refl (table : Table (σ × List (Int × Int))) : table.Precedes table :=
  ⟨List.prefix_rfl, List.prefix_rfl, List.prefix_rfl⟩

theorem trans (first : table.Precedes next) (second : next.Precedes last) :
    table.Precedes last where
  asked := first.asked.trans second.asked
  draws := first.draws.trans second.draws
  rolls := first.rolls.trans second.rolls

/-- An evaluation adds to its table. -/
theorem evaluate (source : Source σ) (rules : Rules) (tree : Expr)
    (table : Table (σ × List (Int × Int))) :
    table.Precedes (table.evaluate source.logged rules tree).2 := by
  rw [Table.evaluate_eq, tree.course_logged source rules table.source.1 table.source.2]
  exact ⟨by simp [Table.after, Course.logged], by simp [Table.after, Course.logged],
    by simp [Table.after, Course.logged]⟩

/-- A node adds to its table, since it is evaluated as an expression over literals is. -/
theorem combine (source : Source σ) (rules : Rules) (layer : Layer Int)
    (table : Table (σ × List (Int × Int))) :
    table.Precedes ((Evaluation.combine source.logged rules layer).on table).2 := by
  cases layer with
  | literal value => exact refl table
  | unary sign value =>
      have whole := evaluate source rules (.unary sign (.literal value)) table
      rwa [← Expr.played_trail] at whole
  | binary operation first second =>
      have whole :=
        evaluate source rules (.binary operation (.literal first) (.literal second)) table
      rwa [← Expr.played_trail] at whole

end Table.Precedes

/-- The tables of a trail that begins on a table are on the way from there to the table left. -/
structure Trail.Advances (table : Table (σ × List (Int × Int)))
    (trail : Trail (σ × List (Int × Int))) : Prop where
  whole : table.Precedes trail.played.2
  arrivals : ∀ arrival ∈ trail.arrivals,
    table.Precedes arrival.table ∧ arrival.table.Precedes trail.played.2

namespace Trail.Advances

theorem node (source : Source σ) (rules : Rules) (layer : Layer Int)
    (table : Table (σ × List (Int × Int))) :
    Advances table (Trail.node source.logged rules layer table) where
  whole := .combine source rules layer table
  arrivals arrival member := by
    have here : arrival.table = table := by
      match layer with
      | .literal _ | .unary _ _ | .binary .add _ _ | .binary .subtract _ _ => cases member
      | .binary (.roll _) count sides => rw [List.mem_singleton.mp member]
    rw [here]
    exact ⟨.refl table, .combine source rules layer table⟩

/-- **A trail that goes on advances if its parts do.** -/
theorem andThen {table : Table (σ × List (Int × Int))} {trail : Trail (σ × List (Int × Int))}
    {next : Int → Table (σ × List (Int × Int)) → Trail (σ × List (Int × Int))}
    (before : Advances table trail) (after : ∀ value table, Advances table (next value table)) :
    Advances table (trail.andThen next) := by
  rcases ended : trail.played with ⟨fault | value, middle⟩
  · rwa [andThen_of_error ended]
  · have later := after value middle
    have begun : table.Precedes middle := by
      rw [show middle = trail.played.2 by rw [ended]]
      exact before.whole
    rw [andThen_of_ok ended]
    refine ⟨begun.trans later.whole, List.forall_mem_append.mpr ⟨?_, ?_⟩⟩
    · intro arrival member
      obtain ⟨reached, left⟩ := before.arrivals arrival member
      rw [ended] at left
      exact ⟨reached, left.trans later.whole⟩
    · intro arrival member
      obtain ⟨reached, left⟩ := later.arrivals arrival member
      exact ⟨begun.trans reached, left⟩

end Trail.Advances

/-- **Every roll is reached on the way**: what has been asked, drawn and recorded until then is a
beginning of what is asked, drawn and recorded in all. -/
theorem Expr.trail_advances (source : Source σ) (rules : Rules) (tree : Expr) :
    ∀ table, Trail.Advances table (tree.trail source.logged rules table) := by
  induction tree with
  | literal value => exact .node source rules (.literal value)
  | unary sign operand ih =>
      intro table
      exact (ih table).andThen fun value => .node source rules (.unary sign value)
  | binary operation left right ihLeft ihRight =>
      intro table
      exact (ihLeft table).andThen fun first table => (ihRight table).andThen fun second =>
        .node source rules (.binary operation first second)

/-! ## The main statement -/

/-- **A limit stops an evaluation at the first roll that has too many dice, and does nothing else.**
The evaluation without a limit reaches some rolls, each on a table that is on its way. If each of
them has less than one die or no more dice than the limit, the evaluation under the limit is the
same: outcome, requests, draws, recorded rolls and state of the source. Otherwise it reaches the
same rolls up to the first that has too many dice, and ends there, whatever the number of sides is.
Nothing is asked, drawn or recorded for that roll. The refusal names this number and the limit
exactly if both can be written. So a success under a limit is the same success under every larger
limit and under none. -/
theorem limit_stops_first_excess (source : Source σ) (record : Bool) (limit : Int) (tree : Expr)
    (table : Table (σ × List (Int × Int))) :
    let run (maxDice : Option Int) := table.evaluate source.logged ⟨record, maxDice⟩ tree
    let trail (maxDice : Option Int) := tree.trail source.logged ⟨record, maxDice⟩ table
    ((∀ arrival ∈ (trail none).arrivals, arrival.count < 1 ∨ arrival.count ≤ limit) →
      run (some limit) = run none ∧ (trail (some limit)).arrivals = (trail none).arrivals) ∧
    (∀ before arrival behind, (trail none).arrivals = before ++ arrival :: behind →
      (∀ earlier ∈ before, earlier.count < 1 ∨ earlier.count ≤ limit) →
        1 ≤ arrival.count → limit < arrival.count →
          run (some limit) =
              (.error (Fault.rollCount arrival.count (some limit)).told, arrival.table) ∧
            ((run (some limit)).1 = .error (.rollCount arrival.count (some limit)) ↔
              Text.isWritable arrival.count = true ∧ Text.isWritable limit = true) ∧
            (trail (some limit)).arrivals = before ++ [arrival] ∧
              arrival.table.Precedes (run none).2) ∧
    ∀ total after, run (some limit) = (.ok total, after) →
      run none = (.ok total, after) ∧
        ∀ larger, limit ≤ larger → run (some larger) = (.ok total, after) := by
  intro run trail
  have played (maxDice : Option Int) : run maxDice = (trail maxDice).played :=
    (tree.played_trail _ _ table).symm
  have limited (limit : Int) : trail (some limit) = (trail none).cut limit :=
    tree.trail_limited _ record limit table
  refine ⟨?_, ?_, ?_⟩
  · intro kept
    have same : trail (some limit) = trail none := by
      rw [limited]
      exact Trail.cut_of_forall_le fun arrival member =>
        breaksLimit_eq_false_iff.mpr (kept arrival member)
    rw [played, played, same]
    exact ⟨rfl, rfl⟩
  · intro before arrival behind reached kept one beyond
    have stops := (limited limit).trans <| Trail.cut_of_first reached
      (fun earlier member => breaksLimit_eq_false_iff.mpr (kept earlier member))
      (breaksLimit_iff.mpr ⟨one, beyond⟩)
    have member : arrival ∈ (trail none).arrivals := by
      rw [reached]
      exact List.mem_append_cons_self
    have onTheWay := ((tree.trail_advances source ⟨record, none⟩ table).arrivals arrival member).2
    rw [played, played, stops]
    exact ⟨rfl, by rw [Except.error.injEq, told_rollCount_iff beyond], rfl, onTheWay⟩
  · intro total after succeeds
    rcases (trail none).kept_or_first limit with
      kept | ⟨before, arrival, behind, reached, kept, broken⟩
    · -- nothing breaks the limit, so nothing breaks a larger one
      have free : run none = (.ok total, after) := by
        rw [← succeeds, played, played, limited, Trail.cut_of_forall_le kept]
      refine ⟨free, fun larger most => ?_⟩
      have keptLarger : ∀ arrival ∈ (trail none).arrivals,
          breaksLimit larger arrival.count = false := by
        intro arrival member
        have few := breaksLimit_eq_false_iff.mp (kept arrival member)
        exact breaksLimit_eq_false_iff.mpr (few.imp_right fun within => within.trans most)
      rw [played, limited, Trail.cut_of_forall_le keptLarger, ← played, free]
    · rw [played, limited, Trail.cut_of_first reached kept broken] at succeeds
      cases succeeds

/-- A roll whose number of dice is rolled: the first two dice keep the limit of two, the three dice
that they show do not, and the sides of these are not looked at. -/
theorem limit_stops_rolled_count :
    let table : Table (Replay × List (Int × Int)) := ⟨(⟨[1, 2, 4], 0⟩, []), #[], #[]⟩
    let tree := Expr.binary (.roll false)
      (.binary (.roll false) (.literal 2) (.literal 6)) (.literal 0)
    let reached : Table (Replay × List (Int × Int)) :=
      ⟨(⟨[4], 2⟩, [(1, 6), (1, 6)]), #[⟨2, 6, [1, 2]⟩], #[⟨6, 1⟩, ⟨6, 2⟩]⟩
    table.evaluate Replay.source.logged ⟨true, none⟩ tree = (.error (.sideCount 0), reached) ∧
      table.evaluate Replay.source.logged ⟨true, some 2⟩ tree =
        (.error (.rollCount 3 (some 2)), reached) ∧
      table.evaluate Replay.source.logged ⟨true, some 3⟩ tree =
        table.evaluate Replay.source.logged ⟨true, none⟩ tree := by
  intro table tree reached
  have course : tree.course Replay.source.logged ⟨true, none⟩ table.source =
      ⟨.error (.invalid (.sideCount 0)), reached.source, [6, 6], reached.draws.toList,
        reached.rolls.toList⟩ := by
    cbv
  have free : table.evaluate Replay.source.logged ⟨true, none⟩ tree =
      (.error (.sideCount 0), reached) := by
    have told : (Fault.sideCount 0).told = .sideCount 0 :=
      Fault.told_of_isWritable (by decide +kernel)
    rw [Table.evaluate_eq, course]
    exact Prod.ext (congrArg Except.error told) rfl
  have first : (Expr.binary (.roll false) (.literal 2) (.literal 6)).trail Replay.source.logged
      ⟨true, none⟩ table = ⟨[⟨2, 6, table⟩], .ok 3, reached⟩ := by
    cbv
  have arrivals : (tree.trail Replay.source.logged ⟨true, none⟩ table).arrivals =
      [⟨2, 6, table⟩] ++ ⟨3, 0, reached⟩ :: [] := by
    rw [Expr.trail]
    beta_reduce
    rw [first]
    rfl
  obtain ⟨-, stops, -⟩ := limit_stops_first_excess Replay.source true 2 tree table
  obtain ⟨same, -, -⟩ := limit_stops_first_excess Replay.source true 3 tree table
  refine ⟨free, ?_, ?_⟩
  · obtain ⟨ended, -⟩ := stops _ _ _ arrivals (by simp) (by decide) (by decide)
    rwa [(told_rollCount_iff (by decide)).mpr ⟨by decide +kernel, by decide +kernel⟩] at ended
  · exact (same (by rw [arrivals]; simp)).1

/-- A number of dice that cannot be written is refused, but the refusal cannot be told. -/
theorem limit_stops_unwritable_count :
    ((Table.mk (Replay.mk [] 0) #[] #[]).evaluate Replay.source ⟨true, some 5⟩
        (.binary (.roll false) (.literal (10 ^ 5000)) (.literal 6))).1 =
      .error (.unwritable (.rollCount (10 ^ 5000) (some 5))) := by
  have broken : breaksLimit 5 (10 ^ 5000) = true :=
    breaksLimit_iff.mpr ⟨by decide +kernel, by decide +kernel⟩
  have refused : Evaluation.rollFault? ⟨true, some 5⟩ (10 ^ 5000) 6 =
      some (.rollCount (10 ^ 5000) (some 5)) := by
    rw [Evaluation.rollFault?_some_limit, if_pos broken]
  have long : (Fault.rollCount (10 ^ 5000) (some 5)).isWritable = false := by decide +kernel
  rw [Table.evaluate_eq]
  simp only [Expr.course, Course.andThen, Course.done, Evaluation.course_roll_eq, refused]
  simp only [Course.stopped, Except.mapError, Halt.reported, Fault.told_of_not_isWritable long]

end DiceNotation
