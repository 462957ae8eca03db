import DiceNotation.Expr.Render
import DiceNotation.Proofs.Reading.Moves

/-!
# The tree that a reader returns

An expression is written from left to right as its in-order reading (`Expr.pieces`); the count of
an implicit roll is not written. Many trees have the same reading. The powers of the operators
choose one of them, and this one can be told without any power, from the shapes of operands alone
(`Expr.Normal`): operands of operators that stand before them and right operands of rolls are
primary, the left operand of a roll and the right operand of a sum are terms, and the left operand
of a sum is free. How many levels a reader opens on the way is also a number of the tree
(`Expr.need`), and never more than its height.

The main statement is `read_eq_ok_iff`: a stream is read as a tree exactly when the tree is normal,
its in-order reading is the sequence of pieces of the stream, and it needs no more levels than the
limit has. So a reader drops, adds and reorders nothing, and no other tree is possible.

Soundness keeps an invariant of the pending operators (`Stacked`), and of the operand in hand
(`Ready`), under the completion of one pending operator (`Ready.complete`) and from there under
every move (`Shift.sound`). Completeness goes by the tree: reading a normal tree leaves its
rightmost leaf in hand and its right spine pending (`reads_pieces`), and completing the spine makes
the tree again (`settleAll_spine`).
-/

set_option autoImplicit false

namespace DiceNotation

/-! ## The shape of a tree -/

namespace Expr

/-- An expression as it is written, from left to right. -/
def pieces : Expr → List Piece
  | literal value => [.number (some value)]
  | unary .identity operand => .operator .plus :: operand.pieces
  | unary .negate operand => .operator .minus :: operand.pieces
  | binary .add left right => left.pieces ++ .operator .plus :: right.pieces
  | binary .subtract left right => left.pieces ++ .operator .minus :: right.pieces
  | binary (.roll false) count sides => count.pieces ++ .operator .die :: sides.pieces
  | binary (.roll true) _ sides => .operator .die :: sides.pieces

/-- A literal, a signed expression or an implicit roll. -/
def IsPrimary : Expr → Prop
  | literal _ => True
  | unary _ _ => True
  | binary (.roll true) _ _ => True
  | binary _ _ _ => False

/-- A primary expression or a roll with a count. -/
def IsTerm : Expr → Prop
  | binary .add _ _ => False
  | binary .subtract _ _ => False
  | _ => True

/-- The trees that binding powers choose, by the shapes of their operands. -/
inductive Normal : Expr → Prop
  | literal (value : Int) : Normal (literal value)
  | unary (sign : Sign) {operand : Expr} :
      operand.IsPrimary → Normal operand → Normal (unary sign operand)
  | die {sides : Expr} : sides.IsPrimary → Normal sides → Normal (die sides)
  | roll {count sides : Expr} :
      count.IsTerm → Normal count → sides.IsPrimary → Normal sides →
        Normal (binary (.roll false) count sides)
  | add {left right : Expr} :
      Normal left → right.IsTerm → Normal right → Normal (binary .add left right)
  | subtract {left right : Expr} :
      Normal left → right.IsTerm → Normal right → Normal (binary .subtract left right)

/-- The number of levels that a reader needs for an expression: an operand before which an operator
stands, and a right operand, lies one level deeper than what it belongs to. -/
def need : Expr → Nat
  | literal _ => 1
  | unary _ operand => 1 + operand.need
  | binary (.roll true) _ sides => 1 + sides.need
  | binary _ left right => max left.need (1 + right.need)

theorem one_le_need (tree : Expr) : 1 ≤ tree.need := by
  unfold need
  split <;> omega

/-- An expression needs no more levels than it is high. -/
theorem need_le_height (tree : Expr) : tree.need ≤ tree.height := by
  induction tree with
  | literal value => exact Nat.le_of_eq (height_literal value).symm
  | unary sign operand ih =>
      rw [height_unary, need]
      omega
  | binary operation left right ihLeft ihRight =>
      rw [height_binary]
      cases operation with
      | add | subtract =>
          simp only [need]
          omega
      | roll isImplicit =>
          cases isImplicit <;>
            · simp only [need]
              omega

theorem IsPrimary.isTerm {tree : Expr} (primary : tree.IsPrimary) : tree.IsTerm := by
  unfold IsPrimary at primary
  split at primary <;> trivial

end Expr

/-! ## Operators as shapes -/

namespace Operator

/-- What an operator between two operands asks of their shapes. -/
def Joins (operator : Operator) (left right : Expr) : Prop :=
  match operator with
  | die => left.IsTerm ∧ right.IsPrimary
  | _ => right.IsTerm

variable {operand left right : Expr}

theorem normal_applyBefore (operator : Operator) (primary : operand.IsPrimary)
    (normal : operand.Normal) : (operator.applyBefore operand).Normal := by
  cases operator with
  | plus => exact .unary .identity primary normal
  | minus => exact .unary .negate primary normal
  | die => exact .die primary normal

theorem normal_applyBetween {operator : Operator} (joins : operator.Joins left right)
    (first : left.Normal) (second : right.Normal) : (operator.applyBetween left right).Normal := by
  cases operator with
  | plus => exact .add first joins second
  | minus => exact .subtract first joins second
  | die => exact .roll joins.1 first joins.2 second

theorem isPrimary_applyBefore (operator : Operator) (operand : Expr) :
    (operator.applyBefore operand).IsPrimary := by
  cases operator <;> trivial

theorem pieces_applyBefore (operator : Operator) (operand : Expr) :
    (operator.applyBefore operand).pieces = .operator operator :: operand.pieces := by
  cases operator <;> rfl

theorem pieces_applyBetween (operator : Operator) (left right : Expr) :
    (operator.applyBetween left right).pieces =
      left.pieces ++ .operator operator :: right.pieces := by
  cases operator <;> rfl

theorem need_applyBefore (operator : Operator) (operand : Expr) :
    (operator.applyBefore operand).need = 1 + operand.need := by
  cases operator <;> rfl

theorem need_applyBetween (operator : Operator) (left right : Expr) :
    (operator.applyBetween left right).need = max left.need (1 + right.need) := by
  cases operator <;> rfl

/-- Induction on a normal tree by its outermost operator. -/
@[elab_as_elim]
theorem normal_induction {motive : (tree : Expr) → tree.Normal → Prop}
    (literal : ∀ value, motive (.literal value) (.literal value))
    (before : ∀ (operator : Operator) {operand : Expr} (primary : operand.IsPrimary)
      (normal : operand.Normal), motive operand normal →
        motive (operator.applyBefore operand) (operator.normal_applyBefore primary normal))
    (between : ∀ (operator : Operator) {left right : Expr} (joins : operator.Joins left right)
      (first : left.Normal) (second : right.Normal), motive left first → motive right second →
        motive (operator.applyBetween left right) (normal_applyBetween joins first second))
    {tree : Expr} (normal : tree.Normal) : motive tree normal := by
  induction normal with
  | literal value => exact literal value
  | unary sign primary normal ih =>
      cases sign with
      | identity => exact before .plus primary normal ih
      | negate => exact before .minus primary normal ih
  | die primary normal ih => exact before .die primary normal ih
  | roll term first primary second ihFirst ihSecond =>
      exact between .die ⟨term, primary⟩ first second ihFirst ihSecond
  | add first term second ihFirst ihSecond =>
      exact between .plus term first second ihFirst ihSecond
  | subtract first term second ihFirst ihSecond =>
      exact between .minus term first second ihFirst ihSecond

end Operator

/-! ## Pending operators -/

namespace Frame

/-- What a pending operator has taken so far, as it is written. -/
def pieces : Frame → List Piece
  | before operator => [.operator operator]
  | between left operator => left.pieces ++ [.operator operator]

/-- What the pending operators have taken so far, the innermost last. -/
def allPieces : List Frame → List Piece
  | [] => []
  | frame :: rest => allPieces rest ++ frame.pieces

theorem pieces_complete (frame : Frame) (operand : Expr) :
    (frame.complete operand).pieces = frame.pieces ++ operand.pieces := by
  cases frame with
  | before operator => exact operator.pieces_applyBefore operand
  | between left operator =>
      simp only [complete, operator.pieces_applyBetween, pieces, List.append_assoc,
        List.singleton_append]

theorem pieces_settle (power : Nat) : ∀ (pending : List Frame) (operand : Expr),
    allPieces (settle power operand pending).2 ++ (settle power operand pending).1.pieces =
      allPieces pending ++ operand.pieces
  | [], _ => rfl
  | frame :: rest, operand => by
      unfold settle
      split
      · rw [pieces_settle power rest, pieces_complete, allPieces, List.append_assoc]
      · rfl

theorem pieces_settleAll : ∀ (pending : List Frame) (operand : Expr),
    (settleAll operand pending).pieces = allPieces pending ++ operand.pieces
  | [], _ => rfl
  | frame :: rest, operand => by
      rw [allPieces, List.append_assoc, ← pieces_complete]
      exact pieces_settleAll rest (frame.complete operand)

end Frame

/-! ## Soundness -/

namespace Reader

variable {limit : DepthLimit}

/-- The operand in hand may stand under the pending operators: what is no primary only under an
operator that a die does not complete, and a sum only under none. -/
structure Fits (operand : Expr) (pending : List Frame) : Prop where
  weak : ¬ operand.IsPrimary → ∀ frame ∈ pending.head?, frame.power ≤ Operator.die.pull
  free : ¬ operand.IsTerm → pending = []

theorem Fits.of_isPrimary {operand : Expr} (primary : operand.IsPrimary) (pending : List Frame) :
    Fits operand pending :=
  ⟨fun other => absurd primary other, fun other => absurd primary.isTerm other⟩

/-- The pending operators that a reader can have come to, with the operands they have taken. -/
inductive Stacked (limit : DepthLimit) : List Frame → Prop
  | nil : Stacked limit []
  | before (sign : Operator) {rest : List Frame} :
      Stacked limit rest → Stacked limit (.before sign :: rest)
  | die {left : Expr} {rest : List Frame} :
      left.IsTerm → left.Normal → rest.length + left.need ≤ limit.levels → Stacked limit rest →
        (∀ frame ∈ rest.head?, frame.power ≤ Operator.die.pull) →
          Stacked limit (.between left .die :: rest)
  | sum {left : Expr} {sign : Operator} :
      sign ≠ .die → left.Normal → left.need ≤ limit.levels → Stacked limit [.between left sign]

/-- An operand in hand that may be completed by what is pending, within the limit. -/
structure Ready (limit : DepthLimit) (operand : Expr) (pending : List Frame) : Prop where
  stacked : Stacked limit pending
  normal : operand.Normal
  fits : Fits operand pending
  room : pending.length + operand.need ≤ limit.levels

/-- Under anything but a sum the operand in hand is primary. -/
theorem Ready.isPrimary {operand : Expr} {frame : Frame} {rest : List Frame}
    (ready : Ready limit operand (frame :: rest)) (other : frame.isSum = false) :
    operand.IsPrimary :=
  Classical.byContradiction fun loose =>
    absurd (ready.fits.weak loose frame rfl)
      (Nat.not_le.mpr (Frame.die_pull_lt_power_iff.mpr other))

/-- **Completing one pending operator keeps the invariant.** -/
theorem Ready.complete {operand : Expr} {frame : Frame} {rest : List Frame}
    (ready : Ready limit operand (frame :: rest)) : Ready limit (frame.complete operand) rest := by
  have room : rest.length + 1 + operand.need ≤ limit.levels := ready.room
  have stacked := ready.stacked
  cases stacked with
  | before sign below =>
      have primary : operand.IsPrimary := ready.isPrimary rfl
      refine ⟨below, sign.normal_applyBefore primary ready.normal,
        .of_isPrimary (sign.isPrimary_applyBefore operand) rest, ?_⟩
      rw [Frame.complete, sign.need_applyBefore]
      omega
  | @die left _ term normal leftRoom below weak =>
      have primary : operand.IsPrimary := ready.isPrimary rfl
      refine ⟨below, .roll term normal primary ready.normal,
        ⟨fun _ => weak, fun other => absurd trivial other⟩, ?_⟩
      rw [Frame.complete, Operator.die.need_applyBetween]
      omega
  | @sum left sign weak normal leftRoom =>
      have term : operand.IsTerm :=
        Classical.byContradiction fun other => (nomatch ready.fits.free other)
      have joins : sign.Joins left operand := by
        cases sign with
        | plus => exact term
        | minus => exact term
        | die => exact absurd rfl weak
      refine ⟨.nil, Operator.normal_applyBetween joins normal ready.normal,
        ⟨fun _ _ impossible => (nomatch impossible), fun _ => rfl⟩, ?_⟩
      rw [Frame.complete, sign.need_applyBetween]
      simp only [List.length_nil] at room ⊢
      omega

theorem Ready.settle (power : Nat) {pending : List Frame} :
    ∀ {operand : Expr}, Ready limit operand pending →
      Ready limit (Frame.settle power operand pending).1
        (Frame.settle power operand pending).2 := by
  induction pending with
  | nil => exact fun ready => ready
  | cons frame rest ih =>
      intro operand ready
      unfold Frame.settle
      split
      · exact ih ready.complete
      · exact ready

theorem Ready.settleAll {pending : List Frame} :
    ∀ {operand : Expr}, Ready limit operand pending →
      Ready limit (Frame.settleAll operand pending) [] := by
  induction pending with
  | nil => exact fun ready => ready
  | cons frame rest ih => exact fun ready => ih ready.complete

/-- What a die completes is a term. -/
theorem isTerm_settle_die {pending : List Frame} :
    ∀ {operand : Expr}, operand.IsTerm →
      (Frame.settle Operator.die.pull operand pending).1.IsTerm := by
  induction pending with
  | nil => exact fun term => term
  | cons frame rest ih =>
      intro operand term
      unfold Frame.settle
      split
      · rename_i strong
        refine ih ?_
        cases frame with
        | before sign => exact (sign.isPrimary_applyBefore operand).isTerm
        | between left sign =>
            cases sign with
            | plus | minus => exact absurd (Frame.die_pull_lt_power_iff.mp strong) Bool.noConfusion
            | die => trivial
      · exact term

/-- What holds of a reader that has taken some pieces: they are what it has in hand and pending,
and these can be completed. -/
def Sound (limit : DepthLimit) (taken : List Piece) : Reader → Prop
  | operand pending => Stacked limit pending ∧ taken = Frame.allPieces pending
  | operator left pending =>
    left.IsTerm ∧ Ready limit left pending ∧ taken = Frame.allPieces pending ++ left.pieces

theorem Shift.sound {taken : List Piece} {reader next : Reader} {piece : Piece}
    (shift : Shift limit reader piece next) (sound : Sound limit taken reader) :
    Sound limit (taken ++ [piece]) next := by
  cases shift with
  | @number pending value room =>
      obtain ⟨stacked, rfl⟩ := sound
      have level : pending.length < limit.levels := by simpa [isFull] using room
      have primary : (Expr.literal value).IsPrimary := trivial
      exact ⟨primary.isTerm, ⟨stacked, .literal value, .of_isPrimary primary pending, level⟩, rfl⟩
  | before sign room =>
      obtain ⟨stacked, rfl⟩ := sound
      exact ⟨.before sign stacked, rfl⟩
  | @between left settled pending rest sign settle =>
      obtain ⟨term, ready, rfl⟩ := sound
      have written := Frame.pieces_settle sign.pull pending left
      rw [settle] at written
      refine ⟨?_, by simp [Frame.allPieces, Frame.pieces, ← written]⟩
      by_cases die : sign = .die
      · subst die
        have weak := Frame.power_settle_le Operator.die.pull pending left
        have after := ready.settle Operator.die.pull
        have termAfter : (Frame.settle Operator.die.pull left pending).1.IsTerm :=
          isTerm_settle_die term
        rw [settle] at weak after termAfter
        exact .die termAfter after.normal after.room after.stacked weak
      · rw [Frame.settle_eq_settleAll die] at settle
        cases settle
        have whole := ready.settleAll
        exact .sum die whole.normal (by simpa using whole.room)

/-- What a reader has read from the start is normal, is written as the pieces read, and needs no
more levels than the limit has. -/
theorem Reads.sound {read : List Piece} {last : Reader} (reads : Reads limit start read last)
    {tree : Expr} (whole : last.whole? = some tree) :
    tree.pieces = read ∧ tree.Normal ∧ tree.need ≤ limit.levels := by
  have initial : Sound limit [] start := ⟨.nil, rfl⟩
  have sound : Sound limit read last := reads.invariant Shift.sound initial
  cases last with
  | operand pending => cases whole
  | operator left pending =>
      cases whole
      obtain ⟨_, ready, rfl⟩ := sound
      have completed := ready.settleAll
      exact ⟨Frame.pieces_settleAll pending left, completed.normal, by simpa using completed.room⟩

end Reader

/-! ## Completeness -/

namespace Expr

/-- The operand in hand of a reader that has read a tree: its rightmost leaf. -/
def leaf : Expr → Expr
  | literal value => literal value
  | unary _ operand => operand.leaf
  | binary _ _ right => right.leaf

/-- The operators that a reader of a tree has pending behind the rightmost leaf, the innermost
first. -/
def spine : Expr → List Frame
  | literal _ => []
  | unary .identity operand => operand.spine ++ [.before .plus]
  | unary .negate operand => operand.spine ++ [.before .minus]
  | binary .add left right => right.spine ++ [.between left .plus]
  | binary .subtract left right => right.spine ++ [.between left .minus]
  | binary (.roll false) count sides => sides.spine ++ [.between count .die]
  | binary (.roll true) _ sides => sides.spine ++ [.before .die]

end Expr

namespace Operator

theorem leaf_applyBefore (operator : Operator) (operand : Expr) :
    (operator.applyBefore operand).leaf = operand.leaf := by
  cases operator <;> rfl

theorem leaf_applyBetween (operator : Operator) (left right : Expr) :
    (operator.applyBetween left right).leaf = right.leaf := by
  cases operator <;> rfl

theorem spine_applyBefore (operator : Operator) (operand : Expr) :
    (operator.applyBefore operand).spine = operand.spine ++ [.before operator] := by
  cases operator <;> rfl

theorem spine_applyBetween (operator : Operator) (left right : Expr) :
    (operator.applyBetween left right).spine = right.spine ++ [.between left operator] := by
  cases operator <;> rfl

end Operator

namespace Reader

variable {limit : DepthLimit}

/-- Completing the right spine of a normal tree makes the tree. -/
theorem settleAll_spine {tree : Expr} (normal : tree.Normal) :
    Frame.settleAll tree.leaf tree.spine = tree := by
  induction normal using Operator.normal_induction with
  | literal value => rfl
  | before operator primary normal ih =>
      rw [operator.leaf_applyBefore, operator.spine_applyBefore, Frame.settleAll_append, ih]
      rfl
  | between operator joins first second _ ih =>
      rw [operator.leaf_applyBetween, operator.spine_applyBetween, Frame.settleAll_append, ih]
      rfl

/-- The right spine of a normal primary tree holds prefix operators only. -/
theorem spine_before {tree : Expr} (normal : tree.Normal) (primary : tree.IsPrimary) :
    ∀ frame ∈ tree.spine, ∃ sign, frame = .before sign := by
  induction normal using Operator.normal_induction with
  | literal value => exact fun _ impossible => (nomatch impossible)
  | before operator inner normal ih =>
      intro frame member
      rw [operator.spine_applyBefore, List.mem_append, List.mem_singleton] at member
      rcases member with below | rfl
      · exact ih inner frame below
      · exact ⟨operator, rfl⟩
  | between operator joins first second _ _ => cases operator <;> exact primary.elim

/-- A die completes the right spine of a normal term. -/
theorem settle_spine_die {tree : Expr} (normal : tree.Normal) (term : tree.IsTerm)
    {pending : List Frame} (weak : ∀ frame ∈ pending.head?, frame.power ≤ Operator.die.pull) :
    Frame.settle Operator.die.pull tree.leaf (tree.spine ++ pending) = (tree, pending) := by
  have strong : ∀ frame ∈ tree.spine, Operator.die.pull < frame.power := by
    intro frame member
    refine Frame.die_pull_lt_power_iff.mpr ?_
    by_cases primary : tree.IsPrimary
    · obtain ⟨sign, rfl⟩ := spine_before normal primary frame member
      rfl
    · cases normal with
      | literal | unary | die => exact absurd trivial primary
      | add | subtract => exact term.elim
      | @roll count sides _ _ inner second =>
          rw [Expr.spine, List.mem_append, List.mem_singleton] at member
          rcases member with below | rfl
          · obtain ⟨sign, rfl⟩ := spine_before second inner frame below
            rfl
          · rfl
  rw [Frame.settle_append strong, settleAll_spine normal, Frame.settle_eq_self weak]

/-- Where a tree joined by an operator may stand, its left operand may stand. Behind that operand
the operator completes the right spine of the operand and nothing else, and its right operand may
stand under it. -/
theorem Fits.between {operator : Operator} {left right : Expr} {pending : List Frame}
    (fits : Fits (operator.applyBetween left right) pending) (joins : operator.Joins left right)
    (first : left.Normal) :
    Fits left pending ∧
      Frame.settle operator.pull left.leaf (left.spine ++ pending) = (left, pending) ∧
        Fits right (.between left operator :: pending) := by
  by_cases die : operator = .die
  · subst die
    obtain ⟨term, primary⟩ := joins
    have weak := fits.weak (fun impossible => impossible.elim)
    exact ⟨⟨fun _ => weak, fun other => absurd term other⟩, settle_spine_die first term weak,
      .of_isPrimary primary _⟩
  · have term : right.IsTerm ∧ ¬ (operator.applyBetween left right).IsTerm := by
      cases operator with
      | plus | minus => exact ⟨joins, fun impossible => impossible.elim⟩
      | die => exact absurd rfl die
    obtain rfl : pending = [] := fits.free term.2
    have held : (Frame.between left operator).power ≤ Operator.die.pull := by
      cases operator with
      | plus | minus => exact Nat.le_succ 2
      | die => exact absurd rfl die
    refine ⟨⟨fun _ _ impossible => (nomatch impossible), fun _ => rfl⟩, ?_, ?_,
      fun other => absurd term.1 other⟩
    · rw [List.append_nil, Frame.settle_eq_settleAll die, settleAll_spine first]
    · intro _ frame member
      obtain rfl : frame = .between left operator := by simpa using member.symm
      exact held

/-- **Reading a normal tree.** A reader that expects an operand, with levels enough and nothing
pending that would take a part of the tree, reads the tree as it is written. It comes to the
rightmost leaf with the right spine pending. -/
theorem reads_pieces {tree : Expr} (normal : tree.Normal) :
    ∀ {pending : List Frame}, Fits tree pending → pending.length + tree.need ≤ limit.levels →
      Reads limit (operand pending) tree.pieces (operator tree.leaf (tree.spine ++ pending)) := by
  have open' {pending : List Frame} {tree : Expr}
      (room : pending.length + tree.need ≤ limit.levels) : isFull limit pending = false := by
    have := tree.one_le_need
    simp only [isFull, decide_eq_false_iff_not]
    omega
  induction normal using Operator.normal_induction with
  | literal value => exact fun fits room => (Shift.number value (open' room)).reads
  | before operator primary normal ih =>
      intro pending fits room
      have full := open' room
      rw [operator.need_applyBefore] at room
      have fitsInner := Fits.of_isPrimary primary (.before operator :: pending)
      have inner := ih fitsInner (by simp only [List.length_cons]; omega)
      rw [operator.pieces_applyBefore, operator.leaf_applyBefore, operator.spine_applyBefore,
        List.append_assoc]
      exact .cons (.before operator full) inner
  | @between operator left right joins first second ihLeft ihRight =>
      intro pending fits room
      obtain ⟨fitsLeft, settled, fitsRight⟩ := fits.between joins first
      rw [operator.need_applyBetween] at room
      have readsLeft := ihLeft fitsLeft (by omega)
      have readsRight := ihRight fitsRight (by simp only [List.length_cons]; omega)
      rw [operator.pieces_applyBetween, operator.leaf_applyBetween, operator.spine_applyBetween,
        List.append_assoc]
      exact readsLeft.append (.cons (.between operator settled) readsRight)

/-- **A normal tree is not read with fewer levels.** The induction follows `reads_pieces`: the state
behind a left operand is known, because the pieces decide it. -/
theorem need_le_of_reads {tree : Expr} (normal : tree.Normal) :
    ∀ {pending : List Frame} {last : Reader}, Fits tree pending →
      Reads limit (operand pending) tree.pieces last →
        pending.length + tree.need ≤ limit.levels := by
  induction normal using Operator.normal_induction with
  | literal value =>
      intro pending last _ reads
      cases reads with
      | cons shift _ =>
          cases shift with
          | number _ room =>
              have level : pending.length < limit.levels := by simpa [isFull] using room
              exact level
  | before operator primary normal ih =>
      intro pending last fits reads
      rw [operator.pieces_applyBefore] at reads
      rw [operator.need_applyBefore]
      cases reads with
      | cons shift reads =>
          cases shift
          have inner := ih (.of_isPrimary primary (.before operator :: pending)) reads
          simp only [List.length_cons] at inner
          omega
  | @between operator left right joins first second ihLeft ihRight =>
      intro pending last fits reads
      obtain ⟨fitsLeft, settled, fitsRight⟩ := fits.between joins first
      rw [operator.pieces_applyBetween] at reads
      rw [operator.need_applyBetween]
      obtain ⟨middle, readsLeft, reads⟩ := reads.split
      have roomLeft := ihLeft fitsLeft readsLeft
      obtain rfl := readsLeft.unique (reads_pieces first fitsLeft roomLeft)
      cases reads with
      | cons shift readsRight =>
          cases shift with
          | between _ settle =>
              rw [settled] at settle
              cases settle
              have roomRight := ihRight fitsRight readsRight
              simp only [List.length_cons] at roomRight
              omega

/-- With nothing pending any operand may stand. -/
theorem fits_nil (tree : Expr) : Fits tree [] :=
  ⟨fun _ _ impossible => (nomatch impossible), fun _ => rfl⟩

/-- A normal tree is read from the start to its end if there are levels enough. -/
theorem exists_reads_of_normal {tree : Expr} (normal : tree.Normal)
    (room : tree.need ≤ limit.levels) :
    ∃ last, Reads limit start tree.pieces last ∧ last.whole? = some tree := by
  have room : ([] : List Frame).length + tree.need ≤ limit.levels := by simpa using room
  have reads := reads_pieces normal (fits_nil tree) room
  rw [List.append_nil] at reads
  exact ⟨_, reads, congrArg some (settleAll_spine normal)⟩

end Reader

/-! ## The main statement -/

/-- **What a reader returns.** A stream is read as a tree exactly when the pieces of the stream are
the tree as it is written, the tree is normal, and it needs no more levels than the limit has. -/
theorem read_eq_ok_iff (tokens : List Token) (limit : DepthLimit) (tree : Expr) :
    ((TokenStream.mk tokens none).read limit).outcome = .ok tree ↔
      tree.pieces = pieces tokens ∧ tree.Normal ∧ tree.need ≤ limit.levels := by
  unfold TokenStream.read
  rw [Reader.run_outcome_eq_ok_iff]
  constructor
  · rintro ⟨last, reads, whole⟩
    exact reads.sound whole
  · rintro ⟨written, normal, room⟩
    rw [← written]
    exact Reader.exists_reads_of_normal normal room

end DiceNotation
