import DiceNotation.Dice.Source

/-!
# The Mersenne Twister

The generator MT19937 holds 624 words of 32 bits. Every 624 outputs the words are renewed in
place, each from its own high bit, the low bits of its successor and the word 397 places on; an
output is a word whose bits have been tempered. A seed of any size fills the words through its own
32-bit words, the least significant one first, and its sign is ignored.

A number below a bound takes as many bits as the bound has and is drawn again until it is below
the bound. Each attempt succeeds with a probability of at least one half, so the number of
attempts that `below` allows is never reached in practice; past them it answers zero, which keeps
the generator total and within its bounds.
-/

set_option autoImplicit false

namespace DiceNotation

/-- The state of a generator: its words, and the number of them already given out. -/
structure Twister where
  words : Array UInt32
  used : Nat

namespace Twister

/-- The number of words. -/
def width : Nat := 624

/-- The distance between a word and the one it is renewed with. -/
def shift : Nat := 397

/-- A word mixed with its own two highest bits. -/
def fold30 (word : UInt32) : UInt32 :=
  word ^^^ (word >>> 30)

/-- The words that a single word fills. -/
def fill (seed : UInt32) : Array UInt32 :=
  (List.range (width - 1)).foldl
    (fun words index =>
      words.push (1812433253 * fold30 (words.getD index 0) + UInt32.ofNat (index + 1)))
    #[seed]

/-- The place after `index`, from one to the last; past the last word the first one takes its
value. -/
def advance (words : Array UInt32) (index : Nat) : Array UInt32 × Nat :=
  if index + 1 < width then (words, index + 1)
  else (words.setIfInBounds 0 (words.getD (width - 1) 0), 1)

/-- Mixes the key into the words, one word of both at a time. -/
def absorb (key : Array UInt32) (words : Array UInt32) : Array UInt32 × Nat :=
  let rounds := max width key.size
  let (words, index, _) := (List.range rounds).foldl
    (fun (words, index, place) _ =>
      let mixed := (words.getD index 0 ^^^ (fold30 (words.getD (index - 1) 0) * 1664525)) +
        key.getD place 0 + UInt32.ofNat place
      let (words, index) := advance (words.setIfInBounds index mixed) index
      (words, index, if place + 1 < key.size then place + 1 else 0))
    (words, 1, 0)
  (words, index)

/-- Stirs the words after a key has been absorbed. -/
def stir (words : Array UInt32) (index : Nat) : Array UInt32 :=
  let (words, _) := (List.range (width - 1)).foldl
    (fun (words, index) _ =>
      let mixed := (words.getD index 0 ^^^ (fold30 (words.getD (index - 1) 0) * 1566083941)) -
        UInt32.ofNat index
      advance (words.setIfInBounds index mixed) index)
    (words, index)
  words.setIfInBounds 0 0x80000000

/-- The 32-bit words of a number, the least significant one first; zero has one word. -/
def keyOf (value : Nat) : List UInt32 :=
  if value < UInt32.size then [UInt32.ofNat value]
  else UInt32.ofNat (value % UInt32.size) :: keyOf (value / UInt32.size)
termination_by value
decreasing_by
  simp only [UInt32.size] at *
  omega

/-- The generator of a seed. -/
def ofSeed (seed : Int) : Twister :=
  let (words, index) := absorb (keyOf seed.natAbs).toArray (fill 19650218)
  ⟨stir words index, width⟩

/-- Renews all words, in order. -/
def renew (words : Array UInt32) : Array UInt32 :=
  (List.range width).foldl
    (fun words index =>
      let joined := (words.getD index 0 &&& 0x80000000) |||
        (words.getD ((index + 1) % width) 0 &&& 0x7FFFFFFF)
      let twisted : UInt32 := if joined &&& 1 == 1 then 0x9908B0DF else 0
      words.setIfInBounds index
        (words.getD ((index + shift) % width) 0 ^^^ (joined >>> 1) ^^^ twisted))
    words

/-- Tempers the bits of a word. -/
def temper (word : UInt32) : UInt32 :=
  let word := word ^^^ (word >>> 11)
  let word := word ^^^ ((word <<< 7) &&& 0x9D2C5680)
  let word := word ^^^ ((word <<< 15) &&& 0xEFC60000)
  word ^^^ (word >>> 18)

/-- The next output. -/
def next (generator : Twister) : UInt32 × Twister :=
  if generator.used < width then
    (temper (generator.words.getD generator.used 0), ⟨generator.words, generator.used + 1⟩)
  else
    let words := renew generator.words
    (temper (words.getD 0 0), ⟨words, 1⟩)

/-- A number of `count` random bits. Full words come first, from the least significant one on; the
last, partial word keeps its highest bits. -/
def bits (count : Nat) (generator : Twister) : Nat × Twister :=
  let (word, generator) := generator.next
  if count ≤ 32 then (word.toNat >>> (32 - count), generator)
  else
    let (higher, generator) := bits (count - 32) generator
    (word.toNat + higher <<< 32, generator)
termination_by count
decreasing_by omega

/-- The number of bits of a number; zero has none. -/
def bitLength (value : Nat) : Nat :=
  if value = 0 then 0 else value.log2 + 1

/-- A number below a bound, drawn at most `attempts` times. -/
def below (bound : Nat) (attempts : Nat) (generator : Twister) : Nat × Twister :=
  match attempts with
  | 0 => (0, generator)
  | attempts + 1 =>
    let (value, generator) := generator.bits (bitLength bound)
    if value < bound then (value, generator) else below bound attempts generator

/-- How often a number is drawn before it is given up. -/
def attempts : Nat := 10000

/-- Answers a request with a number within its bounds. -/
def request (low high : Int) (generator : Twister) : Except Fault Int × Twister :=
  let (value, generator) := generator.below (high - low + 1).toNat attempts
  (.ok (low + value), generator)

/-- The generator as a source. -/
def source : Source Twister :=
  ⟨request⟩

theorem below_lt (bound tries : Nat) (generator : Twister) (h : 0 < bound) :
    (below bound tries generator).1 < bound := by
  induction tries generalizing generator with
  | zero => simpa [below] using h
  | succ tries ih =>
    simp only [below]
    split
    · assumption
    · exact ih _

/-- The generator answers within the bounds. -/
theorem fair_source : source.Fair := by
  intro low high value generator le answer
  have lt := below_lt (high - low + 1).toNat attempts generator (by omega)
  simp only [source, request, Except.ok.injEq] at answer
  omega

end Twister

end DiceNotation
