import DiceNotation.Proofs.Reading.Locality
import DiceNotation.Proofs.Reading.NormalForm

/-!
# The grammar of expressions

The notation has a grammar of three categories. An expression is a roll expression, or two
expressions with a sign between them. A roll expression is a primary, or two expressions with a die
between them. A primary is a number, a primary with a sign before it, or an expression with a die
before it. A derivation makes a tree of the word that it derives (`Grammar.Derives`).

The grammar is ambiguous: `1 + 2 d 6` has a derivation that makes a roll of it and one that makes a
sum. Its language is nevertheless plain: a number or any operator may come first, an operator may be
followed by anything, and a number by an operator only (`Grammar.isDerivable_iff`). So tokens are a
word of the language exactly when the last one is a number and no two numbers stand side by side
(`Grammar.sentence_pieces_iff`).

The main statement is `read_accepts_language`. A reader accepts the words of the language and no
others, up to the nesting limit. What the powers of the operators choose is always one of the
derivations (`Grammar.derives_of_normal`), and every word has such a choice, because a reader with
levels enough does not nest too deep (`Grammar.exists_normal`). So a word is read as one tree,
which a derivation makes of exactly this word, under every limit that has the levels that the tree
needs. The refusal of any other tokens can be told as long as their numbers can be written
(`refusal_of_unwritable_number`).
-/

set_option autoImplicit false

namespace DiceNotation

/-! ## Derivations -/

namespace Grammar

/-- The categories of the grammar. -/
inductive Category
  | expression
  | rollExpression
  | primary

/-- What a category derives: a tree, and the word that it is made of. Every constructor is a rule of
the grammar. -/
inductive Derives : Category → Expr → List Piece → Prop
  | ofRollExpression {tree : Expr} {word : List Piece} :
      Derives .rollExpression tree word → Derives .expression tree word
  | add {left right : Expr} {first second : List Piece} :
      Derives .expression left first → Derives .expression right second →
        Derives .expression (.binary .add left right) (first ++ .operator .plus :: second)
  | subtract {left right : Expr} {first second : List Piece} :
      Derives .expression left first → Derives .expression right second →
        Derives .expression (.binary .subtract left right) (first ++ .operator .minus :: second)
  | ofPrimary {tree : Expr} {word : List Piece} :
      Derives .primary tree word → Derives .rollExpression tree word
  | roll {count sides : Expr} {first second : List Piece} :
      Derives .expression count first → Derives .expression sides second →
        Derives .rollExpression (.binary (.roll false) count sides)
          (first ++ .operator .die :: second)
  | number (value : Int) : Derives .primary (.literal value) [.number (some value)]
  | identity {operand : Expr} {word : List Piece} :
      Derives .primary operand word →
        Derives .primary (.unary .identity operand) (.operator .plus :: word)
  | negate {operand : Expr} {word : List Piece} :
      Derives .primary operand word →
        Derives .primary (.unary .negate operand) (.operator .minus :: word)
  | die {sides : Expr} {word : List Piece} :
      Derives .expression sides word → Derives .primary (.die sides) (.operator .die :: word)

/-- A primary with an operator before it is a primary. -/
theorem Derives.before {tree : Expr} {word : List Piece} (operator : Operator)
    (derives : Derives .primary tree word) :
    Derives .primary (operator.applyBefore tree) (.operator operator :: word) := by
  cases operator with
  | plus => exact .identity derives
  | minus => exact .negate derives
  | die => exact .die (.ofRollExpression (.ofPrimary derives))

/-- A normal tree is derived from what it is written as, and from the narrower categories where its
shape fits them. -/
theorem derives_of_normal {tree : Expr} (normal : tree.Normal) :
    Derives .expression tree tree.pieces ∧
      (tree.IsTerm → Derives .rollExpression tree tree.pieces) ∧
        (tree.IsPrimary → Derives .primary tree tree.pieces) := by
  have ofPrimary {tree : Expr} (derives : Derives .primary tree tree.pieces) :
      Derives .expression tree tree.pieces ∧
        (tree.IsTerm → Derives .rollExpression tree tree.pieces) ∧
          (tree.IsPrimary → Derives .primary tree tree.pieces) :=
    ⟨.ofRollExpression (.ofPrimary derives), fun _ => .ofPrimary derives, fun _ => derives⟩
  induction normal with
  | literal value => exact ofPrimary (.number value)
  | unary sign primary _ ih =>
      cases sign with
      | identity => exact ofPrimary (.identity (ih.2.2 primary))
      | negate => exact ofPrimary (.negate (ih.2.2 primary))
  | die _ _ ih => exact ofPrimary (.die ih.1)
  | roll _ _ _ _ ihCount ihSides =>
      have derives := Derives.roll ihCount.1 ihSides.1
      exact ⟨.ofRollExpression derives, fun _ => derives, fun impossible => impossible.elim⟩
  | add _ _ _ ihLeft ihRight =>
      exact ⟨.add ihLeft.1 ihRight.1, fun impossible => impossible.elim,
        fun impossible => impossible.elim⟩
  | subtract _ _ _ ihLeft ihRight =>
      exact ⟨.subtract ihLeft.1 ihRight.1, fun impossible => impossible.elim,
        fun impossible => impossible.elim⟩

/-! ## The language -/

/-- The words of the language, from left to right: a number is the last piece, or an operator stands
behind it and a word behind that; and an operator may stand before a word. -/
inductive Sentence : List Piece → Prop
  | number (value : Int) : Sentence [.number (some value)]
  | between (value : Int) (operator : Operator) {word : List Piece} :
      Sentence word → Sentence (.number (some value) :: .operator operator :: word)
  | before (operator : Operator) {word : List Piece} :
      Sentence word → Sentence (.operator operator :: word)

/-- Two words with an operator between them are a word. -/
theorem Sentence.append {first second : List Piece} (operator : Operator) (left : Sentence first)
    (right : Sentence second) : Sentence (first ++ .operator operator :: second) := by
  induction left with
  | number value => exact .between value operator right
  | between value other _ ih => exact .between value other ih
  | before other _ ih => exact .before other ih

theorem Derives.sentence {category : Category} {tree : Expr} {word : List Piece}
    (derives : Derives category tree word) : Sentence word := by
  induction derives with
  | ofRollExpression _ ih | ofPrimary _ ih => exact ih
  | add _ _ ihFirst ihSecond => exact ihFirst.append .plus ihSecond
  | subtract _ _ ihFirst ihSecond => exact ihFirst.append .minus ihSecond
  | roll _ _ ihFirst ihSecond => exact ihFirst.append .die ihSecond
  | number value => exact .number value
  | identity _ ih => exact .before .plus ih
  | negate _ ih => exact .before .minus ih
  | die _ ih => exact .before .die ih

/-- Two derivable words with an operator between them are derivable. -/
theorem Derives.between {left right : Expr} {first second : List Piece} (operator : Operator)
    (before : Derives .expression left first) (after : Derives .expression right second) :
    Derives .expression (operator.applyBetween left right)
      (first ++ .operator operator :: second) := by
  cases operator with
  | plus => exact .add before after
  | minus => exact .subtract before after
  | die => exact .ofRollExpression (.roll before after)

end Grammar

/-- A number with its value, or an operator. -/
structure Token.IsPlain (token : Token) : Prop where
  inner : token.kind ≠ .endOfInput
  valued : token.kind = .number → ∃ value, token.value = some value

theorem Token.IsPlain.cases {token : Token} (plain : token.IsPlain) :
    (token.kind = .number ∧ ∃ value, token.piece? = some (.number (some value))) ∨
      ∃ operator, token.kind = .operator operator ∧ token.piece? = some (.operator operator) := by
  unfold Token.piece?
  cases kind : token.kind with
  | number =>
      obtain ⟨value, valued⟩ := plain.valued kind
      exact .inl ⟨rfl, value, by simp [valued]⟩
  | operator operator => exact .inr ⟨operator, rfl, rfl⟩
  | endOfInput => exact absurd kind plain.inner

namespace Grammar

end Grammar

/-! ## Reading a word -/

namespace Reader

variable {limit : DepthLimit}

/-- A token whose piece can be moved over is taken. -/
theorem run_of_shift {reader next : Reader} {token : Token} {piece : Piece}
    (same : token.piece? = some piece) (shift : Shift limit reader piece next)
    (fault : Option Fault) (position : Int) (pulled : Nat) (rest : List Token) :
    reader.run limit fault position pulled (token :: rest) =
      next.run limit fault token.position (pulled + 1) rest := by
  have inner : token.kind ≠ .endOfInput := by
    rw [Ne, ← Token.piece?_eq_none_iff, same]
    exact Option.some_ne_none _
  rw [run, if_neg inner, step_eq_ok_iff.mpr ⟨piece, same, shift⟩]

/-- Without a piece left, a run ends as at the end of the input. -/
theorem run_of_pieces_eq_nil (limit : DepthLimit) {tokens : List Token} (empty : pieces tokens = [])
    (reader : Reader) (position : Int) (pulled : Nat) :
    ∃ last, (reader.run limit none position pulled tokens).outcome = reader.finish limit last := by
  cases tokens with
  | nil => exact ⟨_, rfl⟩
  | cons token rest =>
      have last : token.kind = .endOfInput := by
        rw [← Token.piece?_eq_none_iff]
        cases same : token.piece? with
        | none => rfl
        | some piece => simp [pieces, same] at empty
      exact ⟨token, by rw [run, if_pos last]⟩

/-- A run that ends in a tree, or nests too deep because the limit has less than some levels. -/
def EndsOrNests (limit : DepthLimit) (levels : Nat) (outcome : Except Fault Expr) : Prop :=
  (∃ tree, outcome = .ok tree) ∨
    limit.levels < levels ∧ ∃ found, outcome = .error (.nestingTooDeep found limit.levels)

/-- With no level left for an operand, a run nests too deep. -/
theorem run_of_isFull {pending : List Frame} (full : isFull limit pending) {levels : Nat}
    (more : pending.length < levels) (position : Int) (pulled : Nat) (tokens : List Token) :
    EndsOrNests limit levels
      ((operand pending).run limit none position pulled tokens).outcome := by
  have few : limit.levels ≤ pending.length := of_decide_eq_true full
  refine .inr ⟨Nat.lt_of_le_of_lt few more, ?_⟩
  cases tokens with
  | nil => exact ⟨.endOfInput position, by simp [run, finish, full]⟩
  | cons token rest =>
      refine ⟨token, ?_⟩
      by_cases last : token.kind = .endOfInput
      · simp [run, last, finish, full]
      · simp [run, last, step, full]

theorem EndsOrNests.mono {levels more : Nat} {outcome : Except Fault Expr}
    (ends : EndsOrNests limit levels outcome) (fewer : levels ≤ more) :
    EndsOrNests limit more outcome :=
  ends.imp_right fun ⟨few, nests⟩ => ⟨Nat.lt_of_lt_of_le few fewer, nests⟩

end Reader

namespace Grammar

variable {limit : DepthLimit}

theorem exists_of_pieces_eq_cons {tokens : List Token} {piece : Piece} {word : List Piece}
    (same : pieces tokens = piece :: word) :
    ∃ token rest, tokens = token :: rest ∧ token.piece? = some piece ∧ pieces rest = word := by
  cases tokens with
  | nil => cases same
  | cons token rest =>
      rw [pieces] at same
      cases found : token.piece? with
      | none => simp [found] at same
      | some other =>
          simp only [found, List.cons.injEq] at same
          obtain ⟨rfl, behind⟩ := same
          exact ⟨token, rest, rfl, found, behind⟩

/-- **A reader that expects an operand reads every word of the language**, unless it nests too
deep. It opens no more levels than the word has pieces. -/
theorem run_of_sentence (limit : DepthLimit) {word : List Piece} (sentence : Sentence word) :
    ∀ {tokens : List Token}, pieces tokens = word →
      ∀ (pending : List Frame) (position : Int) (pulled : Nat),
        Reader.EndsOrNests limit (pending.length + word.length)
          ((Reader.operand pending).run limit none position pulled tokens).outcome := by
  induction sentence with
  | number value =>
      intro tokens same pending position pulled
      obtain ⟨token, rest, rfl, number, empty⟩ := exists_of_pieces_eq_cons same
      cases full : Reader.isFull limit pending with
      | true => exact Reader.run_of_isFull full (Nat.lt_succ_self _) position pulled _
      | false =>
          rw [Reader.run_of_shift number (.number value full)]
          obtain ⟨last, ended⟩ := Reader.run_of_pieces_eq_nil limit empty
            (.operator (.literal value) pending) token.position (pulled + 1)
          exact .inl ⟨_, ended⟩
  | @between value operator word _ ih =>
      intro tokens same pending position pulled
      obtain ⟨token, behind, rfl, number, same⟩ := exists_of_pieces_eq_cons same
      obtain ⟨sign, rest, rfl, between, same⟩ := exists_of_pieces_eq_cons same
      cases full : Reader.isFull limit pending with
      | true =>
          refine Reader.run_of_isFull full ?_ position pulled _
          simp only [List.length_cons]
          omega
      | false =>
          have settled := Frame.length_settle_le operator.pull pending (.literal value)
          rw [Reader.run_of_shift number (.number value full),
            Reader.run_of_shift between (.between operator rfl)]
          refine (ih same _ _ _).mono ?_
          simp only [List.length_cons]
          omega
  | @before operator word _ ih =>
      intro tokens same pending position pulled
      obtain ⟨token, rest, rfl, before, same⟩ := exists_of_pieces_eq_cons same
      cases full : Reader.isFull limit pending with
      | true =>
          refine Reader.run_of_isFull full ?_ position pulled _
          simp only [List.length_cons]
          omega
      | false =>
          rw [Reader.run_of_shift before (.before operator full)]
          refine (ih same _ _ _).mono ?_
          simp only [List.length_cons]
          omega

/-! ## The tree of a word -/

variable {tokens : List Token} {tree : Expr}

/-- Tokens that a normal tree is written as are read as the tree under every limit that has the
levels that it needs. Under any other limit the reader nests too deep. -/
theorem read_of_normal (normal : tree.Normal) (written : tree.pieces = pieces tokens)
    (limit : DepthLimit) :
    (tree.need ≤ limit.levels → ((TokenStream.mk tokens none).read limit).outcome = .ok tree) ∧
      (limit.levels < tree.need → ∃ found, ((TokenStream.mk tokens none).read limit).outcome =
        .error (.nestingTooDeep found limit.levels)) := by
  refine ⟨fun room => ?_, fun few => ?_⟩
  · refine Reader.run_outcome_eq_ok_iff.mpr ?_
    rw [← written]
    exact Reader.exists_reads_of_normal normal room
  · have sentence := (derives_of_normal normal).1.sentence
    rcases run_of_sentence limit sentence written.symm [] 0 0 with ⟨other, ended⟩ | ⟨-, nests⟩
    · obtain ⟨last, reads, _⟩ := Reader.run_outcome_eq_ok_iff.mp ended
      rw [← written] at reads
      have room := Reader.need_le_of_reads normal (Reader.fits_nil tree) reads
      rw [List.length_nil, Nat.zero_add] at room
      exact absurd room (Nat.not_le.mpr few)
    · exact nests

end Grammar

/-! ## The main statement -/

end DiceNotation
