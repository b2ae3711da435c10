import CurvePuzzle.Random.Keystream

/-!
# Random sources

A random source is an endless row of 64-bit words and the number of words already drawn. Nothing
else about it matters, so a statement about every source is one about every row of words.

* `RandomSource.seeded` reads the key stream of a seed; `RandomSource.cycle` repeats given words.
* `RandomSource.uniform` takes one word and scales it into a range of floats.
* `RangeError` says why a range cannot be drawn from; `checkRange` decides it.
-/

set_option autoImplicit false

namespace CurvePuzzle

/-- A row of words, and how many of them were drawn. -/
structure RandomSource where
  word : Nat → UInt64
  drawn : Nat

/-- Why no number can be drawn from a range. -/
inductive RangeError where
  | empty
  | notFinite
  deriving DecidableEq, Repr

/-- The words for it. -/
def RangeError.message : RangeError → String
  | empty => "cannot sample empty range"
  | notFinite => "called `Result::unwrap()` on an `Err` value: NonFinite"

/-- What is wrong with the range from `low` to `high`, if anything. -/
def checkRange (low high : Float) : Option RangeError :=
  if !(low ≤ high) then some .empty
  else if !(high - low).isFinite then some .notFinite
  else none

namespace RandomSource

/-- The source of a seed. -/
def seeded (seed : UInt64) : RandomSource :=
  let key := Keystream.key seed
  ⟨Keystream.word key, 0⟩

/-- The source that repeats these words; without any, it repeats 0. -/
def cycle (words : Array UInt64) : RandomSource := ⟨fun n => words.getD (n % words.size) 0, 0⟩

/-- The next word, and the source behind it. -/
def next (s : RandomSource) : UInt64 × RandomSource :=
  (s.word s.drawn, { s with drawn := s.drawn + 1 })

/-- The next `n` words. -/
def take (s : RandomSource) (n : Nat) : List UInt64 :=
  (List.range n).map fun i => s.word (s.drawn + i)

/-- The float from 1 to below 2 whose mantissa is the upper part of a word. -/
def mantissa (w : UInt64) : Float := Float.ofBits ((0x3ff0000000000000 : UInt64) ||| (w >>> 12))

/-- A number from `low` to `high`, made of the next word. -/
def uniform (low high : Float) (s : RandomSource) : Float × RandomSource :=
  ((mantissa s.next.1 - 1.0) * (high - low) + low, s.next.2)

end RandomSource

end CurvePuzzle
