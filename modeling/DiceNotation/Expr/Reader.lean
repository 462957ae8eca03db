import DiceNotation.DepthLimit
import DiceNotation.Expr
import DiceNotation.TokenStream

/-!
# Reading an expression

A reader takes tokens from left to right, one at a time, and keeps the operators that wait for
their right operand in a list, the innermost first. It waits either for an operand or, after one,
for an operator or the end. Every operator holds the operand to its right with a certain power,
and an operator between two operands pulls at the operand to its left with a power of its own:
before the new operator takes its left operand, each pending operator that holds the operand more
strongly completes it.

| operator              | pulls left | holds right |
|-----------------------|------------|-------------|
| `+`, `-` between      | 1          | 2           |
| `d` between           | 3          | 4           |
| `+`, `-` before       |            | 5           |
| `d` before            |            | 7           |

So `2d6+3` is `(2d6)+3`, `2d6d4` is `(2d6)d4`, `-2d6` is `(-2)d6` and `-d20` is `-(d20)`. An operand
may only start while fewer operators are pending than the limit allows levels.

The end of a stream without an end-of-input token counts as one, at the place of the last token. The
reader never takes a token after the one that decides. A fault tells the token that was found, with
its value and its place. In tokens that were made by hand these may be too long to be written
(`TokenStream.parse`). In the tokens of a text they are not, as long as a word counts its
characters, so the reading of a text is told as it is.
-/

set_option autoImplicit false

namespace DiceNotation

namespace Operator

/-- The power with which an operator between two operands pulls at the left one. -/
def pull : Operator → Nat
  | plus => 1
  | minus => 1
  | die => 3

/-- The power with which an operator between two operands holds the right one. -/
def hold : Operator → Nat
  | plus => 2
  | minus => 2
  | die => 4

/-- The power with which an operator before an operand holds it. -/
def holdBefore : Operator → Nat
  | plus => 5
  | minus => 5
  | die => 7

/-- The expression that an operator before an operand makes. -/
def applyBefore : Operator → Expr → Expr
  | plus, operand => .unary .identity operand
  | minus, operand => .unary .negate operand
  | die, operand => .die operand

/-- The expression that an operator between two operands makes. -/
def applyBetween : Operator → Expr → Expr → Expr
  | plus, left, right => .binary .add left right
  | minus, left, right => .binary .subtract left right
  | die, left, right => .binary (.roll false) left right

end Operator

/-- An operator that waits for the operand to its right. -/
inductive Frame
  | before (operator : Operator)
  | between (left : Expr) (operator : Operator)
deriving DecidableEq

namespace Frame

/-- The power with which a pending operator holds its operand. -/
def power : Frame → Nat
  | before operator => operator.holdBefore
  | between _ operator => operator.hold

/-- The expression that a pending operator makes of its operand. -/
def complete : Frame → Expr → Expr
  | before operator, operand => operator.applyBefore operand
  | between left operator, operand => operator.applyBetween left operand

/-- Completes the pending operators that hold an operand more strongly than the given power. -/
def settle (power : Nat) (operand : Expr) : List Frame → Expr × List Frame
  | [] => (operand, [])
  | frame :: rest =>
    if power < frame.power then settle power (frame.complete operand) rest
    else (operand, frame :: rest)

/-- Completes every pending operator. -/
def settleAll (operand : Expr) (pending : List Frame) : Expr :=
  pending.foldl (fun operand frame => frame.complete operand) operand

end Frame

/-- The state of a reader between two tokens. -/
inductive Reader
  /-- An operand must come next. -/
  | operand (pending : List Frame)
  /-- An operand has been read. -/
  | operator (left : Expr) (pending : List Frame)
deriving DecidableEq

namespace Reader

/-- The state before the first token. -/
def start : Reader :=
  operand []

/-- Whether a pending list leaves no level for another operand. -/
def isFull (limit : DepthLimit) (pending : List Frame) : Bool :=
  limit.levels ≤ pending.length

/-- Reads a token that is not the end of the input. -/
def step (limit : DepthLimit) (reader : Reader) (token : Token) : Except Fault Reader :=
  match reader with
  | operand pending =>
    if isFull limit pending then .error (.nestingTooDeep token limit.levels)
    else
      match token.kind, token.value with
      | .number, some value => .ok (operator (.literal value) pending)
      | .number, none => .error (.unexpectedToken "number value" token none)
      | .operator sign, _ => .ok (operand (.before sign :: pending))
      | .endOfInput, _ => .error (.endOfInput "operand" token)
  | operator left pending =>
    match token.kind with
    | .operator sign =>
      let (left, pending) := Frame.settle sign.pull left pending
      .ok (operand (.between left sign :: pending))
    | _ => .error (.trailingInput token)

/-- Reads the end of the input. -/
def finish (limit : DepthLimit) (reader : Reader) (token : Token) : Except Fault Expr :=
  match reader with
  | operand pending =>
    if isFull limit pending then .error (.nestingTooDeep token limit.levels)
    else .error (.endOfInput "operand" token)
  | operator left pending => .ok (Frame.settleAll left pending)

end Reader

/-- How the reading of a stream ends, and how many tokens it took. -/
structure Reading where
  outcome : Except Fault Expr
  pulled : Nat

namespace Reader

/-- Reads the tokens that are left of a stream with the given fault behind them, after `pulled`
tokens, the last of them at `position`. -/
def run (limit : DepthLimit) (fault : Option Fault) (reader : Reader) (position : Int)
    (pulled : Nat) : List Token → Reading
  | [] =>
    match fault with
    | some fault => ⟨.error fault, pulled⟩
    | none => ⟨reader.finish limit (.endOfInput position), pulled⟩
  | token :: rest =>
    if token.kind = .endOfInput then ⟨reader.finish limit token, pulled + 1⟩
    else
      match reader.step limit token with
      | .ok next => run limit fault next token.position (pulled + 1) rest
      | .error fault => ⟨.error fault, pulled + 1⟩

end Reader

/-- Reads a stream as one expression. -/
def TokenStream.read (stream : TokenStream) (limit : DepthLimit := .standard) : Reading :=
  Reader.start.run limit stream.fault 0 0 stream.tokens

/-- A reading as it is told: its fault may have numbers that are too long to be written. -/
def Reading.told (reading : Reading) : Reading :=
  { reading with outcome := reading.outcome.mapError Fault.told }

/-- Reads a stream as one expression, and tells how this ends. -/
def TokenStream.parse (stream : TokenStream) (limit : DepthLimit := .standard) : Reading :=
  (stream.read limit).told

/-- Reads a text as one expression. -/
def Expr.parse (text : String) (limit : DepthLimit := .standard) : Except Fault Expr :=
  ((TokenStream.ofText text).read limit).outcome

end DiceNotation
