/-!
# Sources of random draws

A generator draws probabilities and choices from a source. The machine source is
the generator xoshiro256++. Its state is filled from a seed by a second, simpler
generator, a permuted congruential one.

## Main definitions

- `Source` — what a generator may ask of a source
- `Xoshiro` — the state of the machine source
- `Xoshiro.ofSeed`, `Xoshiro.next` — its start and its words
- `Xoshiro.source` — the draws that it gives
-/

namespace TrigPainting

/-- Draws from a source with states `σ` and probabilities `α`. -/
structure Source (α σ : Type) where
  /-- A draw from `[0, 1)`, and the state after it. -/
  chance : σ → α × σ
  /-- A draw from the numbers below `n`, and the state after it. -/
  pick : (n : Nat) → 0 < n → σ → Fin n × σ

/-- The state of the machine source: four words. -/
structure Xoshiro where
  s0 : UInt64
  s1 : UInt64
  s2 : UInt64
  s3 : UInt64
deriving DecidableEq, Repr

namespace Xoshiro

/-- A word with its bits rotated to the left. -/
def rotateLeft (x amount : UInt64) : UInt64 :=
  (x <<< amount) ||| (x >>> (64 - amount))

/-- The next state of the congruential generator that expands a seed. -/
def advance (counter : UInt64) : UInt64 :=
  counter * 6364136223846793005 + 11634580027462260723

/-- The 32 bits that a state of the congruential generator gives: a part of it,
rotated to the right by its upper five bits. -/
def permute (counter : UInt64) : UInt32 :=
  let bits := (((counter >>> 18) ^^^ counter) >>> 27).toUInt32
  let amount := (counter >>> 59).toUInt32
  (bits >>> amount) ||| (bits <<< (32 - amount))

/-- A word made of the next two outputs, the lower half first, and the state
after them. -/
def expand (counter : UInt64) : UInt64 × UInt64 :=
  let low := advance counter
  let high := advance low
  ((permute low).toUInt64 ||| ((permute high).toUInt64 <<< 32), high)

/-- The state that a seed starts from: the first four words it expands to. -/
def ofSeed (seed : UInt64) : Xoshiro :=
  let (s0, counter) := expand seed
  let (s1, counter) := expand counter
  let (s2, counter) := expand counter
  let (s3, _) := expand counter
  ⟨s0, s1, s2, s3⟩

/-- The next word, and the state after it. -/
def next (s : Xoshiro) : UInt64 × Xoshiro :=
  let result := rotateLeft (s.s0 + s.s3) 23 + s.s0
  let s2 := s.s2 ^^^ s.s0
  let s3 := s.s3 ^^^ s.s1
  let s1 := s.s1 ^^^ s2
  let s0 := s.s0 ^^^ s3
  (result, ⟨s0, s1, s2 ^^^ (s.s1 <<< 17), rotateLeft s3 45⟩)

/-- A draw from `[0, 1)`: the upper 52 bits of a word, as a fraction. -/
def chance (s : Xoshiro) : Float × Xoshiro :=
  let (word, s) := s.next
  ((word >>> 12).toFloat / 4503599627370496, s)

/-- The largest remainder for which a word is taken as a draw below `n`: the
largest multiple of `n` by a power of two that fits a word, less one. -/
def zone (n : Nat) : Nat :=
  (n <<< (63 - Nat.log2 n)) - 1

/-- A word times `n` has an upper half below `n`. -/
theorem upperHalf_lt (word : UInt64) {n : Nat} (hn : 0 < n) :
    word.toNat * n / UInt64.size < n := by
  rw [Nat.div_lt_iff_lt_mul (by decide), Nat.mul_comm n]
  exact Nat.mul_lt_mul_of_pos_right word.toNat_lt_size hn

/-- A draw below `n`: the upper half of the product of a word and `n`, unless
the lower half lies outside the zone; then the next word is tried. At least half
of all words are taken, so the number of `tries` is a formality. -/
def pickWithin (n : Nat) (hn : 0 < n) : Nat → Xoshiro → Fin n × Xoshiro
  -- Out of reach: no word would have been taken in all the tries.
  | 0, s => (⟨0, hn⟩, s)
  | tries + 1, s =>
    let (word, s) := s.next
    if word.toNat * n % UInt64.size ≤ zone n then
      (⟨word.toNat * n / UInt64.size, upperHalf_lt word hn⟩, s)
    else pickWithin n hn tries s

/-- A draw below `n`. -/
def pick (n : Nat) (hn : 0 < n) (s : Xoshiro) : Fin n × Xoshiro :=
  pickWithin n hn UInt64.size s

/-- The draws of the machine source. -/
def source : Source Float Xoshiro where
  chance := chance
  pick := pick

example : zone 5 = 0x9FFFFFFFFFFFFFFF ∧ zone 8 = 0x7FFFFFFFFFFFFFFF := by decide +kernel

end Xoshiro

end TrigPainting
