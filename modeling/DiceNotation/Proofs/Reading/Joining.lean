import DiceNotation.Proofs.Reading.Grammar
import DiceNotation.Proofs.Reading.Literals
import DiceNotation.Proofs.TokenStream.Spacing

/-!
# Two texts with a plus between them

Two texts with a plus between them are read as one expression. That is not the sum of the two
expressions: signs associate to the left, so the first expression is added to the first term of the
second (`Expr.joined`), and `1` before `2-3` makes `(1+2)-3`.

No run of digits reaches over the plus, so the joined text meets the tokens of the first text, the
plus and the tokens of the second, further behind (`TokenStream.ofText_join`). The joined expression
is normal and written as these tokens. Hence it is what a reader returns if it has a level more than
the first term of the second expression needs, and otherwise the reader nests too deep
(`Expr.parse_join`).
-/

set_option autoImplicit false

namespace DiceNotation

/-! ## Joined expressions -/

namespace Expr

/-- The term that a sum starts with: its left operand's first term, and of any other expression the
expression itself. -/
def firstTerm : Expr → Expr
  | binary .add left _ => left.firstTerm
  | binary .subtract left _ => left.firstTerm
  | term => term

/-- An expression with another in place of its first term. -/
def replaceFirstTerm : Expr → Expr → Expr
  | binary .add left right, other => binary .add (left.replaceFirstTerm other) right
  | binary .subtract left right, other => binary .subtract (left.replaceFirstTerm other) right
  | _, other => other

/-- An expression with another added before its first term. -/
def joined (front back : Expr) : Expr :=
  back.replaceFirstTerm (binary .add front back.firstTerm)

variable {front back : Expr}

theorem firstTerm_of_isTerm : ∀ {tree : Expr}, tree.IsTerm → tree.firstTerm = tree
  | literal _, _ | unary _ _, _ | binary (.roll _) _ _, _ => rfl
  | binary .add _ _, impossible | binary .subtract _ _, impossible => impossible.elim

theorem joined_of_isTerm : ∀ {back : Expr}, back.IsTerm → front.joined back = binary .add front back
  | literal _, _ | unary _ _, _ | binary (.roll _) _ _, _ => rfl
  | binary .add _ _, impossible | binary .subtract _ _, impossible => impossible.elim

/-- Induction on an expression along its first operands, as far as they are sums. -/
@[elab_as_elim]
theorem sum_induction {motive : Expr → Prop}
    (term : ∀ {tree : Expr}, tree.IsTerm → motive tree)
    (add : ∀ {left right : Expr}, motive left → motive (binary .add left right))
    (subtract : ∀ {left right : Expr}, motive left → motive (binary .subtract left right))
    (tree : Expr) : motive tree := by
  induction tree with
  | literal value => exact term trivial
  | unary sign operand _ => exact term trivial
  | binary operation left right ih _ =>
      cases operation with
      | add => exact add ih
      | subtract => exact subtract ih
      | roll isImplicit => exact term trivial

/-- A joined expression is written as its two parts with a plus between them. -/
theorem pieces_joined (front back : Expr) :
    (front.joined back).pieces = front.pieces ++ .operator .plus :: back.pieces := by
  induction back using sum_induction with
  | term term => rw [joined_of_isTerm term, pieces]
  | @add left right ih =>
      change (front.joined left).pieces ++ _ = _
      rw [ih, pieces, List.append_assoc, List.cons_append]
  | @subtract left right ih =>
      change (front.joined left).pieces ++ _ = _
      rw [ih, pieces, List.append_assoc, List.cons_append]

theorem Normal.joined (first : front.Normal) (second : back.Normal) :
    (front.joined back).Normal := by
  induction back using sum_induction with
  | term term =>
      rw [joined_of_isTerm term]
      exact .add first term second
  | add ih =>
      cases second with
      | add left term right => exact .add (ih left) term right
  | subtract ih =>
      cases second with
      | subtract left term right => exact .subtract (ih left) term right

/-- A joined expression needs the levels of its parts, and one level more for the term that the
first part is added to. -/
theorem need_joined (front back : Expr) :
    (front.joined back).need = max front.need (max back.need (1 + back.firstTerm.need)) := by
  induction back using sum_induction with
  | term term =>
      rw [joined_of_isTerm term, firstTerm_of_isTerm term]
      change max front.need (1 + _) = _
      omega
  | @add left right ih =>
      change max (front.joined left).need (1 + right.need) =
        max front.need (max (max left.need (1 + right.need)) (1 + left.firstTerm.need))
      omega
  | @subtract left right ih =>
      change max (front.joined left).need (1 + right.need) =
        max front.need (max (max left.need (1 + right.need)) (1 + left.firstTerm.need))
      omega

end Expr

/-! ## Joined texts -/

/-- The pieces of tokens that do not end the input come before those of the tokens behind. -/
theorem pieces_append {first : List Token} (inner : ∀ token ∈ first, token.kind ≠ .endOfInput)
    (second : List Token) : pieces (first ++ second) = pieces first ++ pieces second := by
  induction first with
  | nil => rfl
  | cons token rest ih =>
      obtain ⟨here, others⟩ := List.forall_mem_cons.mp inner
      obtain ⟨piece, same⟩ : ∃ piece, token.piece? = some piece :=
        Option.ne_none_iff_exists'.mp (mt Token.piece?_eq_none_iff.mp here)
      simp only [List.cons_append, pieces, same, ih others]

/-- Tokens have the same pieces at other places. -/
theorem pieces_moved (move : Int → Int) (tokens : List Token) :
    pieces (tokens.map (Token.moved move)) = pieces tokens := by
  induction tokens with
  | nil => rfl
  | cons token rest ih =>
      have same : (token.moved move).piece? = token.piece? := rfl
      simp only [List.map_cons, pieces, same, ih]

namespace TokenStream

/-- Before the last of closed events there is no end of the input. -/
theorem Closed.kind_ne {tokens : List Token} {event : Event}
    (closed : Closed (tokens.map .ok ++ [event])) : ∀ token ∈ tokens, token.kind ≠ .endOfInput := by
  induction tokens with
  | nil => exact fun _ impossible => (nomatch impossible)
  | cons token rest ih =>
      generalize behind : rest.map Except.ok ++ [event] = others at closed ih
      rw [List.map_cons, List.cons_append, behind] at closed
      cases closed with
      | endOfInput place => simp at behind
      | token inner closed => exact List.forall_mem_cons.mpr ⟨inner, ih closed⟩

/-- A text without a fault meets tokens that do not end the input, and then its end. -/
theorem exists_tokens_of_fault_eq_none {text : String} (sound : (ofText text).fault = none) :
    ∃ (inner : List Token) (place : Int), ofText text = ⟨inner ++ [.endOfInput place], none⟩ ∧
      ∀ token ∈ inner, token.kind ≠ .endOfInput := by
  have closed : Closed (ofText text).events := closed_eventsFrom text.toList 0
  generalize ofText text = stream at sound closed ⊢
  obtain ⟨tokens, fault⟩ := stream
  obtain rfl : fault = none := sound
  have only : events ⟨tokens, none⟩ = tokens.map .ok := List.append_nil _
  rw [only] at closed
  obtain ⟨inner, place, rfl⟩ := closed.exists_endOfInput
  rw [List.map_append] at closed
  exact ⟨inner, place, rfl, Closed.kind_ne closed⟩

/-- Behind a text without a fault a plus is met, and then the events of the second text, further
behind. -/
theorem events_join {first second : String} {inner : List Event} {place : Int}
    (alone : eventsFrom 0 first.toList = inner ++ [.ok (.endOfInput place)]) :
    eventsFrom 0 (first ++ "+" ++ second).toList =
      inner ++ .ok (.operator first.toList.length .plus) ::
        (eventsFrom 0 second.toList).map
          (Event.moved (· + ((first.toList.length + 1 : Nat) : Int))) := by
  have apart : Apart first.toList ('+' :: second.toList) := by
    rintro _ _ _ ⟨⟩ _
    rfl
  have chars : (first ++ "+" ++ second).toList = first.toList ++ '+' :: second.toList := by simp
  rw [chars, events_append_of_eq apart alone, events_operator rfl, ← events_later, Nat.zero_add,
    Nat.zero_add]

/-- **Two texts without a fault and a plus between them** are a text without a fault, and its pieces
are those of the first, the plus and those of the second. -/
theorem ofText_join {first second : String} (sound : (ofText first).fault = none)
    (sound' : (ofText second).fault = none) :
    (ofText (first ++ "+" ++ second)).fault = none ∧
      pieces (ofText (first ++ "+" ++ second)).tokens =
        pieces (ofText first).tokens ++ .operator .plus :: pieces (ofText second).tokens := by
  obtain ⟨inner, place, same, inside⟩ := exists_tokens_of_fault_eq_none sound
  have met {text : String} (sound : (ofText text).fault = none) :
      eventsFrom 0 text.toList = (ofText text).tokens.map .ok := by
    change (ofText text).events = _
    rw [events, sound]
    exact List.append_nil _
  have alone : eventsFrom 0 first.toList = inner.map .ok ++ [.ok (.endOfInput place)] := by
    rw [met sound, same, List.map_append]
    rfl
  let plus := Token.operator first.toList.length .plus
  let later := (ofText second).tokens.map
    (Token.moved (· + ((first.toList.length + 1 : Nat) : Int)))
  have whole : (ofText (first ++ "+" ++ second)).events = (inner ++ plus :: later).map .ok := by
    change eventsFrom 0 (first ++ "+" ++ second).toList = _
    rw [events_join alone, met sound']
    simp [plus, later, Event.moved, Function.comp_def]
  have ended : pieces [Token.endOfInput place] = [] := rfl
  have behind : pieces (plus :: later) = .operator .plus :: pieces (ofText second).tokens :=
    congrArg (Piece.operator .plus :: ·) (pieces_moved _ _)
  rw [eq_of_events whole, same, pieces_append inside, pieces_append inside, behind, ended,
    List.append_nil]
  exact ⟨rfl, rfl⟩

end TokenStream

/-! ## Reading a joined text -/

namespace Expr

/-- A text that is read has no fault. -/
theorem fault_eq_none_of_parse {text : String} {limit : DepthLimit} {tree : Expr}
    (ended : Expr.parse text limit = .ok tree) : (TokenStream.ofText text).fault = none := by
  have closed : TokenStream.Closed (TokenStream.ofText text).events :=
    TokenStream.closed_eventsFrom text.toList 0
  have left := TokenStream.outcome_of_not_failsOn closed fun fault fails => by
    have other := fails.1
    rw [TokenStream.outcome_of_ok ended] at other
    cases other
  cases behind : (TokenStream.ofText text).fault with
  | none => rfl
  | some fault =>
      rw [behind] at left
      cases ended.symm.trans left

/-- A text without a fault that a normal tree is written as is read as the tree, or the tree needs
too many levels and the reader nests too deep. -/
theorem parse_of_normal {text : String} {limit : DepthLimit} {tree : Expr}
    (sound : (TokenStream.ofText text).fault = none) (normal : tree.Normal)
    (written : tree.pieces = DiceNotation.pieces (TokenStream.ofText text).tokens) :
    (tree.need ≤ limit.levels → Expr.parse text limit = .ok tree) ∧
      (limit.levels < tree.need →
        ∃ found, Expr.parse text limit = .error (.nestingTooDeep found limit.levels)) := by
  unfold Expr.parse TokenStream.read
  rw [sound]
  exact Grammar.read_of_normal normal written limit

/-- **Two texts that are read, with a plus between them,** are read as the joined expression if
there is a level more than the first term of the second expression needs. Otherwise the reader nests
too deep. -/
theorem parse_join {first second : String} {limit : DepthLimit} {front back : Expr}
    (readFirst : Expr.parse first limit = .ok front)
    (readSecond : Expr.parse second limit = .ok back) :
    (back.firstTerm.need < limit.levels →
      Expr.parse (first ++ "+" ++ second) limit = .ok (front.joined back)) ∧
    (limit.levels ≤ back.firstTerm.need → ∃ found,
      Expr.parse (first ++ "+" ++ second) limit =
        .error (.nestingTooDeep found limit.levels)) := by
  obtain ⟨writtenFirst, normalFirst, roomFirst⟩ := sound_of_parse readFirst
  obtain ⟨writtenSecond, normalSecond, roomSecond⟩ := sound_of_parse readSecond
  obtain ⟨sound, joins⟩ := TokenStream.ofText_join (fault_eq_none_of_parse readFirst)
    (fault_eq_none_of_parse readSecond)
  rw [← writtenFirst, ← writtenSecond, ← pieces_joined] at joins
  obtain ⟨reads, nests⟩ := parse_of_normal sound (normalFirst.joined normalSecond) joins.symm
  have need := need_joined front back
  exact ⟨fun room => reads (by omega), fun short => nests (by omega)⟩

end Expr

end DiceNotation
