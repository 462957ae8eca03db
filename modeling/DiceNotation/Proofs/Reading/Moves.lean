import DiceNotation.Expr.Reader

/-!
# The moves of a reader

Of a token that is not the end of the input, a successful reader sees only a piece: a number with
its value, if it carries one, or an operator. The pieces of a sequence of tokens are those before
its first end of the input (`pieces`).

Completing pending operators is settling them (`Frame.settle`). Operators that all hold more
strongly than a power can be completed beforehand (`Frame.settle_append`), a sign completes
everything that is pending, and a die everything but a sign between two operands.

A move takes one piece and says everything that a successful step can do (`Shift`,
`step_eq_ok_iff`). A reader that expects an operand takes a number or an operator that stands before
its operand, while there is a level left. A reader behind an operand takes an operator, after the
pending operators that hold the operand more strongly have been completed. Moves in sequence are
`Reads`, and a run ends in a tree exactly when its pieces can be read in sequence and end behind an
operand (`run_outcome_eq_ok_iff`). The place of a token and the number of tokens taken have no part
in this.
-/

set_option autoImplicit false

namespace DiceNotation

/-- What a token tells a reader besides its place. -/
inductive Piece
  | number (value : Option Int)
  | operator (operator : Operator)
deriving DecidableEq

/-- The piece of a token that is not the end of the input. -/
def Token.piece? (token : Token) : Option Piece :=
  match token.kind with
  | .number => some (.number token.value)
  | .operator operator => some (.operator operator)
  | .endOfInput => none

/-- The pieces of a sequence of tokens, up to the first end of the input. -/
def pieces : List Token → List Piece
  | [] => []
  | token :: rest =>
    match token.piece? with
    | some piece => piece :: pieces rest
    | none => []

theorem Token.piece?_eq_none_iff {token : Token} :
    token.piece? = none ↔ token.kind = .endOfInput := by
  unfold Token.piece?
  cases token.kind <;> simp

/-! ## Pending operators -/

namespace Frame

/-- A sign that waits for its right operand. -/
def isSum : Frame → Bool
  | between _ .plus => true
  | between _ .minus => true
  | _ => false

/-- A die completes every pending operator but a sign between two operands. -/
theorem die_pull_lt_power_iff {frame : Frame} :
    Operator.die.pull < frame.power ↔ frame.isSum = false := by
  rcases frame with (_ | _ | _) | ⟨_, _ | _ | _⟩ <;>
    simp [power, isSum, Operator.pull, Operator.hold, Operator.holdBefore]

/-- Completing frames that all hold more strongly than a power is part of every settling. -/
theorem settle_append {power : Nat} : ∀ {inner : List Frame},
    (∀ frame ∈ inner, power < frame.power) → ∀ (operand : Expr) (outer : List Frame),
      settle power operand (inner ++ outer) = settle power (settleAll operand inner) outer
  | [], _, _, _ => rfl
  | frame :: rest, strong, operand, outer => by
      have first : power < frame.power := strong frame (List.mem_cons_self ..)
      have others : ∀ other ∈ rest, power < other.power :=
        fun other member => strong other (List.mem_cons_of_mem _ member)
      rw [List.cons_append, settle, if_pos first, settle_append others]
      rfl

theorem settleAll_append (inner outer : List Frame) (operand : Expr) :
    settleAll operand (inner ++ outer) = settleAll (settleAll operand inner) outer :=
  List.foldl_append

/-- A settling stops at a frame that holds no more strongly than the power. -/
theorem settle_eq_self {power : Nat} {operand : Expr} {pending : List Frame}
    (weak : ∀ frame ∈ pending.head?, frame.power ≤ power) :
    settle power operand pending = (operand, pending) := by
  cases pending with
  | nil => rfl
  | cons frame rest =>
      have held : frame.power ≤ power := weak frame rfl
      rw [settle, if_neg (Nat.not_lt.mpr held)]

theorem length_settle_le (power : Nat) : ∀ (pending : List Frame) (operand : Expr),
    (settle power operand pending).2.length ≤ pending.length
  | [], _ => Nat.le_refl _
  | frame :: rest, operand => by
      unfold settle
      split
      · exact Nat.le_succ_of_le (length_settle_le power rest _)
      · exact Nat.le_refl _

/-- What a settling leaves pending holds no more strongly than the power. -/
theorem power_settle_le (power : Nat) : ∀ (pending : List Frame) (operand : Expr),
    ∀ frame ∈ (settle power operand pending).2.head?, frame.power ≤ power
  | [], _ => by simp [settle]
  | frame :: rest, operand => by
      unfold settle
      split
      · exact power_settle_le power rest _
      · rename_i weak
        simpa using weak

/-- A sign completes every pending operator. -/
theorem settle_eq_settleAll {sign : Operator} (other : sign ≠ .die) (operand : Expr)
    (pending : List Frame) :
    settle sign.pull operand pending = (settleAll operand pending, []) := by
  have least (frame : Frame) : 2 ≤ frame.power := by
    cases frame with
    | before sign => cases sign <;> decide
    | between _ sign => cases sign <;> simp [power, Operator.hold]
  have strong (frame : Frame) : sign.pull < frame.power := by
    cases sign with
    | die => exact absurd rfl other
    | plus | minus => exact least frame
  have all := settle_append (fun frame (_ : frame ∈ pending) => strong frame) operand []
  rwa [List.append_nil] at all

end Frame

/-! ## Moves -/

namespace Reader

variable {limit : DepthLimit}

/-- One move of a reader: the piece it takes and the state it comes to. -/
inductive Shift (limit : DepthLimit) : Reader → Piece → Reader → Prop
  | number {pending : List Frame} (value : Int) :
      isFull limit pending = false →
        Shift limit (operand pending) (.number (some value)) (operator (.literal value) pending)
  | before {pending : List Frame} (sign : Operator) :
      isFull limit pending = false →
        Shift limit (operand pending) (.operator sign) (operand (.before sign :: pending))
  | between {left settled : Expr} {pending open' : List Frame} (sign : Operator) :
      Frame.settle sign.pull left pending = (settled, open') →
        Shift limit (operator left pending) (.operator sign)
          (operand (.between settled sign :: open'))

/-- A step succeeds exactly by a move on the piece of its token. -/
theorem step_eq_ok_iff {reader next : Reader} {token : Token} :
    reader.step limit token = .ok next ↔
      (∃ piece, token.piece? = some piece ∧ Shift limit reader piece next) := by
  constructor
  · intro moved
    cases reader with
    | operand pending =>
        simp only [step] at moved
        split at moved
        · cases moved
        · rename_i room
          have room : isFull limit pending = false := by simpa using room
          split at moved
          · rename_i kind value
            cases moved
            exact ⟨_, by rw [Token.piece?, kind, value], .number _ room⟩
          · cases moved
          · rename_i kind
            cases moved
            exact ⟨_, by rw [Token.piece?, kind], .before _ room⟩
          · cases moved
    | operator left pending =>
        simp only [step] at moved
        split at moved
        · rename_i kind
          cases moved
          exact ⟨_, by rw [Token.piece?, kind], .between _ rfl⟩
        · cases moved
  · rintro ⟨piece, same, shift⟩
    unfold Token.piece? at same
    cases shift with
    | number value room =>
        split at same
        · rename_i kind
          have value : token.value = some value := by simpa using same
          simp [step, room, kind, value]
        · cases same
        · cases same
    | before sign room =>
        split at same
        · cases same
        · rename_i kind
          cases same
          simp [step, room, kind]
        · cases same
    | between sign settled =>
        split at same
        · cases same
        · rename_i kind
          cases same
          simp [step, kind, settled]
        · cases same

/-- Moves one after the other. -/
inductive Reads (limit : DepthLimit) : Reader → List Piece → Reader → Prop
  | nil (reader : Reader) : Reads limit reader [] reader
  | cons {reader next last : Reader} {piece : Piece} {rest : List Piece} :
      Shift limit reader piece next → Reads limit next rest last →
        Reads limit reader (piece :: rest) last

theorem Reads.append {reader middle last : Reader} {first second : List Piece}
    (before : Reads limit reader first middle) (after : Reads limit middle second last) :
    Reads limit reader (first ++ second) last := by
  induction before with
  | nil _ => exact after
  | cons shift _ ih => exact .cons shift (ih after)

theorem Shift.reads {reader next : Reader} {piece : Piece} (shift : Shift limit reader piece next) :
    Reads limit reader [piece] next :=
  .cons shift (.nil next)

/-- Moves on two sequences of pieces come by a state between the two. -/
theorem Reads.split {last : Reader} {second : List Piece} :
    ∀ {first : List Piece} {reader : Reader},
    Reads limit reader (first ++ second) last →
      ∃ middle, Reads limit reader first middle ∧ Reads limit middle second last
  | [], reader, reads => ⟨reader, .nil reader, reads⟩
  | _ :: _, _, .cons shift reads => by
      obtain ⟨middle, before, after⟩ := reads.split
      exact ⟨middle, .cons shift before, after⟩

/-- The piece decides the move. -/
theorem Shift.unique {reader next other : Reader} {piece : Piece}
    (shift : Shift limit reader piece next) (shift' : Shift limit reader piece other) :
    next = other := by
  cases shift with
  | number | before => cases shift'; rfl
  | between sign settle =>
      cases shift' with
      | between _ settle' =>
          rw [settle] at settle'
          cases settle'
          rfl

/-- The pieces decide the state that they are read to. -/
theorem Reads.unique {reader last other : Reader} {read : List Piece}
    (reads : Reads limit reader read last) (reads' : Reads limit reader read other) :
    last = other := by
  induction reads with
  | nil _ =>
      cases reads'
      rfl
  | cons shift _ ih =>
      cases reads' with
      | cons shift' reads' =>
          cases shift.unique shift'
          exact ih reads'

/-- A property that every move keeps holds after moves in sequence. -/
theorem Reads.invariant {holds : List Piece → Reader → Prop}
    (kept : ∀ {taken : List Piece} {reader next : Reader} {piece : Piece},
      Shift limit reader piece next → holds taken reader → holds (taken ++ [piece]) next)
    {reader last : Reader} {read : List Piece} (reads : Reads limit reader read last) :
    ∀ {taken : List Piece}, holds taken reader → holds (taken ++ read) last := by
  induction reads with
  | nil _ => intro taken start; simpa using start
  | cons shift _ ih =>
      intro taken start
      simpa using ih (kept shift start)

/-- The tree that a reader has read if the input ends here: behind an operand, everything pending
is completed. -/
def whole? : Reader → Option Expr
  | operand _ => none
  | operator left pending => some (Frame.settleAll left pending)

theorem finish_eq_ok_iff {reader : Reader} {token : Token} {tree : Expr} :
    reader.finish limit token = .ok tree ↔ reader.whole? = some tree := by
  cases reader with
  | operand pending =>
      simp only [finish, whole?]
      split <;> simp
  | operator left pending => simp [finish, whole?]

/-- **A run without a fault behind its tokens ends in a tree exactly when its pieces can be read
in sequence to a state that has read the tree.** -/
theorem run_outcome_eq_ok_iff {tokens : List Token} {tree : Expr} :
    ∀ {reader : Reader} {position : Int} {pulled : Nat},
      (reader.run limit none position pulled tokens).outcome = .ok tree ↔
        ∃ last, Reads limit reader (pieces tokens) last ∧ last.whole? = some tree := by
  have ending (reader : Reader) (token : Token) :
      reader.finish limit token = .ok tree ↔
        ∃ last, Reads limit reader [] last ∧ last.whole? = some tree := by
    rw [finish_eq_ok_iff]
    constructor
    · exact fun whole => ⟨reader, .nil reader, whole⟩
    · rintro ⟨last, reads, whole⟩
      cases reads
      exact whole
  induction tokens with
  | nil => exact fun {_ _ _} => ending _ _
  | cons token rest ih =>
      intro reader position pulled
      rw [run]
      by_cases last : token.kind = .endOfInput
      · rw [if_pos last, pieces, Token.piece?_eq_none_iff.mpr last]
        exact ending _ _
      · rw [if_neg last]
        obtain ⟨piece, same⟩ : ∃ piece, token.piece? = some piece :=
          Option.ne_none_iff_exists'.mp (mt Token.piece?_eq_none_iff.mp last)
        have shifts {next : Reader} (shift : Shift limit reader piece next) :
            reader.step limit token = .ok next :=
          step_eq_ok_iff.mpr ⟨piece, same, shift⟩
        simp only [pieces, same]
        cases moved : reader.step limit token with
        | ok next =>
            obtain ⟨_, same', shift⟩ := step_eq_ok_iff.mp moved
            rw [same] at same'
            cases same'
            simp only [ih]
            constructor
            · rintro ⟨last, reads, whole⟩
              exact ⟨last, .cons shift reads, whole⟩
            · rintro ⟨last, reads, whole⟩
              cases reads with
              | cons shift' reads =>
                  have other := shifts shift'
                  rw [moved] at other
                  cases other
                  exact ⟨last, reads, whole⟩
        | error fault =>
            refine ⟨fun impossible => (nomatch impossible), ?_⟩
            rintro ⟨_, reads, _⟩
            cases reads with
            | cons shift _ =>
                have other := shifts shift
                rw [moved] at other
                cases other

end Reader

end DiceNotation
