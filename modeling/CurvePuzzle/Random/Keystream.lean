/-!
# The key stream

A ChaCha key stream with twelve rounds, read as 64-bit words. The key is drawn from a 64-bit seed
by a linear congruential generator with permuted output.

* `key` makes the eight key words of a seed.
* `block` is one block of sixteen words, a function of the key and the block counter alone.
* `word` is the `n`-th 64-bit word of the stream: two neighbouring words of a block, the lower first.
-/

set_option autoImplicit false

namespace CurvePuzzle.Keystream

/-- One step of the generator that makes key words. -/
def advance (state : UInt64) : UInt64 := state * 6364136223846793005 + 11634580027462260723

/-- A word turned right by some places. -/
def rotateRight (w n : UInt32) : UInt32 := (w >>> n) ||| (w <<< ((32 - n) % 32))

/-- A word turned left by some places. -/
def rotateLeft (w n : UInt32) : UInt32 := (w <<< n) ||| (w >>> (32 - n))

/-- The key word that a generator state gives. -/
def keyWord (state : UInt64) : UInt32 :=
  rotateRight (((state >>> 18) ^^^ state) >>> 27).toUInt32 (state >>> 59).toUInt32

/-- The first `n` key words after a generator state. -/
def keyWords : Nat → UInt64 → List UInt32
  | 0, _ => []
  | n + 1, state => keyWord (advance state) :: keyWords n (advance state)

/-- The key of a seed. -/
def key (seed : UInt64) : List UInt32 := keyWords 8 seed

/-- The first row of every block. -/
def constants : List UInt32 := [0x61707865, 0x3320646e, 0x79622d32, 0x6b206574]

/-- The block before its rounds: constants, key, counter with the low word first, nonce 0. -/
def initial (key : List UInt32) (counter : UInt64) : Array UInt32 :=
  (constants ++ key ++ [counter.toUInt32, (counter >>> 32).toUInt32, 0, 0]).toArray

/-- Adds one word of the block to another, and turns a third by the sum. -/
def mix (s : Array UInt32) (a b d : Nat) (turn : UInt32) : Array UInt32 :=
  let sum := s.getD a 0 + s.getD b 0
  (s.setIfInBounds a sum).setIfInBounds d (rotateLeft (s.getD d 0 ^^^ sum) turn)

/-- The quarter round on four words of the block. -/
def quarterRound (s : Array UInt32) (a b c d : Nat) : Array UInt32 :=
  let s := mix s a b d 16
  let s := mix s c d b 12
  let s := mix s a b d 8
  mix s c d b 7

/-- Two rounds: the columns of the block, then its diagonals. -/
def doubleRound (s : Array UInt32) : Array UInt32 :=
  let s := quarterRound s 0 4 8 12
  let s := quarterRound s 1 5 9 13
  let s := quarterRound s 2 6 10 14
  let s := quarterRound s 3 7 11 15
  let s := quarterRound s 0 5 10 15
  let s := quarterRound s 1 6 11 12
  let s := quarterRound s 2 7 8 13
  quarterRound s 3 4 9 14

/-- Twelve rounds. -/
def rounds (s : Array UInt32) : Array UInt32 :=
  doubleRound (doubleRound (doubleRound (doubleRound (doubleRound (doubleRound s)))))

/-- One block of the stream. -/
def block (key : List UInt32) (counter : UInt64) : Array UInt32 :=
  let start := initial key counter
  Array.zipWith (· + ·) (rounds start) start

/-- The `n`-th 64-bit word of the stream. -/
def word (key : List UInt32) (n : Nat) : UInt64 :=
  let words := block key (UInt64.ofNat (n / 8))
  let low := words.getD (2 * (n % 8)) 0
  let high := words.getD (2 * (n % 8) + 1) 0
  low.toUInt64 ||| (high.toUInt64 <<< 32)

end CurvePuzzle.Keystream
