import Chip8.Table

/-! The source of random bytes. A seed is stretched to a key of eight words, and the key numbers an
endless stream of words: block `b` of the stream is the key, a constant and the counter `b` mixed in
twelve rounds. A stream remembers only its key and how many words have been taken. -/
namespace Chip8

structure Random where
  key : Table UInt32 8
  /-- Words taken so far. -/
  taken : Nat
  deriving DecidableEq, Repr

namespace Random

/-! ### From seed to key -/

/-- One step of the congruential generator that stretches a seed. -/
def advanceSeed (state : UInt64) : UInt64 :=
  state * 6364136223846793005 + 11634580027462260723

def rotateRight (w : UInt32) (places : UInt32) : UInt32 :=
  w >>> places ||| w <<< ((32 - places) &&& 31)

/-- The word a generator state gives: folded to 32 bits, then rotated by its top five bits. -/
def seedWord (state : UInt64) : UInt32 :=
  rotateRight (((state >>> 18) ^^^ state) >>> 27).toUInt32 (state >>> 59).toUInt32

/-- The state after `n` steps. -/
def seedState (seed : UInt64) : Nat → UInt64
  | 0 => seed
  | n + 1 => advanceSeed (seedState seed n)

/-- The stream of a key, with nothing taken from it yet. -/
def ofKey (key : Table UInt32 8) : Random where
  key := key
  taken := 0

def ofSeed (seed : UInt64) : Random :=
  ofKey (.ofFn fun i => seedWord (seedState seed (i.val + 1)))

/-! ### From key to stream -/

abbrev Block := Table UInt32 16

def rotateLeft (w : UInt32) (places : UInt32) : UInt32 :=
  w <<< places ||| w >>> (32 - places)

/-- Word `a` of a block replaced by its sum with word `b`. -/
def addWords (v : Block) (a b : Fin 16) : Block := v.set a (v.get a + v.get b)

/-- Word `a` of a block combined with word `b` and rotated. -/
def mixWords (v : Block) (a b : Fin 16) (places : UInt32) : Block :=
  v.set a (rotateLeft (v.get a ^^^ v.get b) places)

/-- Four words of a block mixed with one another. -/
def quarterRound (v : Block) (a b c d : Fin 16) : Block :=
  let v := mixWords (addWords v a b) d a 16
  let v := mixWords (addWords v c d) b c 12
  let v := mixWords (addWords v a b) d a 8
  mixWords (addWords v c d) b c 7

/-- Two rounds: the columns of the four by four block, then its diagonals. -/
def doubleRound (v : Block) : Block :=
  let v := quarterRound v 0 4 8 12
  let v := quarterRound v 1 5 9 13
  let v := quarterRound v 2 6 10 14
  let v := quarterRound v 3 7 11 15
  let v := quarterRound v 0 5 10 15
  let v := quarterRound v 1 6 11 12
  let v := quarterRound v 2 7 8 13
  quarterRound v 3 4 9 14

def doubleRounds : Nat → Block → Block
  | 0, v => v
  | n + 1, v => doubleRounds n (doubleRound v)

/-- Block `counter` before mixing: `expand 32-byte k`, the key, the counter and an empty nonce. -/
def initialBlock (key : Table UInt32 8) (counter : UInt64) : Block :=
  let constant : Vector UInt32 4 := #v[0x61707865, 0x3320646e, 0x79622d32, 0x6b206574]
  let place : Vector UInt32 4 := #v[counter.toUInt32, (counter >>> 32).toUInt32, 0, 0]
  constant ++ key ++ place

def block (key : Table UInt32 8) (counter : UInt64) : Block :=
  let start := initialBlock key counter
  let mixed := doubleRounds 6 start
  .ofFn fun i => start.get i + mixed.get i

/-- Word `n` of the stream of a key. -/
def word (key : Table UInt32 8) (n : Nat) : UInt32 :=
  (block key (n / 16).toUInt64).get ⟨n % 16, Nat.mod_lt _ (by decide)⟩

/-- Byte `n` of the stream is the low byte of its word `n`. -/
def byte (key : Table UInt32 8) (n : Nat) : UInt8 := (word key n).toUInt8

/-- The next byte, for which a whole word is taken. -/
def next (r : Random) : UInt8 × Random :=
  (byte r.key r.taken, { r with taken := r.taken + 1 })

end Random
end Chip8
