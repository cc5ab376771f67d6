import Camouflage.Bytes

/-!
# The key stream

ChaCha with twelve rounds, a key of eight words, and a block counter of sixty-four bits: a stream of
words that is a function of the key and of the place in the stream. A number of sixty-four bits is
stretched into a key by a multiplicative generator whose output is rotated by its own high bits.
-/

namespace Camouflage.KeyStream

/-- A key of eight words. -/
structure Key where
  (k0 k1 k2 k3 k4 k5 k6 k7 : UInt32)
  deriving DecidableEq, Repr

/-- The sixteen words of the cipher's state. -/
structure Block where
  (x0 x1 x2 x3 x4 x5 x6 x7 x8 x9 x10 x11 x12 x13 x14 x15 : UInt32)
  deriving DecidableEq, Repr

/-- Rotates a word to the left by `n` bits, `0 < n < 32`. -/
def rotate (x n : UInt32) : UInt32 :=
  (x <<< n) ||| (x >>> (32 - n))

/-- Mixes four words. -/
def quarter (a b c d : UInt32) : UInt32 × UInt32 × UInt32 × UInt32 :=
  let a := a + b
  let d := rotate (d ^^^ a) 16
  let c := c + d
  let b := rotate (b ^^^ c) 12
  let a := a + b
  let d := rotate (d ^^^ a) 8
  let c := c + d
  let b := rotate (b ^^^ c) 7
  (a, b, c, d)

/-- Two rounds: the columns, then the diagonals. -/
def doubleRound (s : Block) : Block :=
  let (x0, x4, x8, x12) := quarter s.x0 s.x4 s.x8 s.x12
  let (x1, x5, x9, x13) := quarter s.x1 s.x5 s.x9 s.x13
  let (x2, x6, x10, x14) := quarter s.x2 s.x6 s.x10 s.x14
  let (x3, x7, x11, x15) := quarter s.x3 s.x7 s.x11 s.x15
  let (x0, x5, x10, x15) := quarter x0 x5 x10 x15
  let (x1, x6, x11, x12) := quarter x1 x6 x11 x12
  let (x2, x7, x8, x13) := quarter x2 x7 x8 x13
  let (x3, x4, x9, x14) := quarter x3 x4 x9 x14
  ⟨x0, x1, x2, x3, x4, x5, x6, x7, x8, x9, x10, x11, x12, x13, x14, x15⟩

/-- The state before the rounds of block number `counter`. -/
def initial (key : Key) (counter : Nat) : Block where
  x0 := 0x61707865
  x1 := 0x3320646e
  x2 := 0x79622d32
  x3 := 0x6b206574
  x4 := key.k0
  x5 := key.k1
  x6 := key.k2
  x7 := key.k3
  x8 := key.k4
  x9 := key.k5
  x10 := key.k6
  x11 := key.k7
  x12 := UInt32.ofNat counter
  x13 := UInt32.ofNat (counter / wordSpan)
  x14 := 0
  x15 := 0

/-- The words of block number `counter`, in order. -/
def block (key : Key) (counter : Nat) : List UInt32 :=
  let i := initial key counter
  let s := doubleRound (doubleRound (doubleRound (doubleRound (doubleRound (doubleRound i)))))
  [s.x0 + i.x0, s.x1 + i.x1, s.x2 + i.x2, s.x3 + i.x3, s.x4 + i.x4, s.x5 + i.x5, s.x6 + i.x6,
    s.x7 + i.x7, s.x8 + i.x8, s.x9 + i.x9, s.x10 + i.x10, s.x11 + i.x11, s.x12 + i.x12,
    s.x13 + i.x13, s.x14 + i.x14, s.x15 + i.x15]

/-- The word at place `n` of the stream. -/
def word (key : Key) (n : Nat) : UInt32 :=
  (block key (n / 16)).getD (n % 16) 0

/-- Advances the generator that stretches seeds. -/
def stretch (state : UInt64) : UInt64 :=
  state * 6364136223846793005 + 11634580027462260723

/-- The key word that a state of that generator gives. -/
def keyWord (state : UInt64) : UInt32 :=
  let x := (((state >>> 18) ^^^ state) >>> 27).toUInt32
  let n := (state >>> 59).toUInt32
  (x >>> n) ||| (x <<< ((32 - n) % 32))

/-- The key of a seed. -/
def Key.ofSeed (seed : UInt64) : Key :=
  let s0 := stretch seed
  let s1 := stretch s0
  let s2 := stretch s1
  let s3 := stretch s2
  let s4 := stretch s3
  let s5 := stretch s4
  let s6 := stretch s5
  let s7 := stretch s6
  ⟨keyWord s0, keyWord s1, keyWord s2, keyWord s3, keyWord s4, keyWord s5, keyWord s6, keyWord s7⟩

end Camouflage.KeyStream
