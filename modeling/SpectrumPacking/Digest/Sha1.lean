import SpectrumPacking.Text.Numeral

/-!
# The Digest SHA-1

The secure hash algorithm with 160 bits: a message is padded to blocks of sixteen 32-bit words,
and each block stirs a state of five words.
-/

namespace SpectrumPacking.Sha1

/-! ## §1 Padding -/

/-- The bytes of a number, the highest first. -/
def bigEndian : Nat → Nat → List UInt8
  | 0, _ => []
  | k + 1, n => UInt8.ofNat (n / 256 ^ k) :: bigEndian k n

/-- The message followed by a set bit, zeros and its length in bits, in whole blocks. -/
def pad (message : List UInt8) : List UInt8 :=
  message ++ 0x80 :: List.replicate ((119 - message.length % 64) % 64) 0 ++
    bigEndian 8 (8 * message.length)

/-- Reads bytes as words of four. -/
def words : List UInt8 → List UInt32
  | a :: b :: c :: d :: rest =>
    (a.toUInt32 <<< 24 ||| b.toUInt32 <<< 16 ||| c.toUInt32 <<< 8 ||| d.toUInt32) :: words rest
  | _ => []

/-- Cuts the first `n` blocks of sixteen words off a list. -/
def blocks : Nat → List UInt32 → List (List UInt32)
  | 0, _ => []
  | n + 1, l => l.take 16 :: blocks n (l.drop 16)

/-! ## §2 Rounds -/

/-- Turns a word to the left. -/
def turn (x : UInt32) (n : UInt32) : UInt32 := x <<< n ||| x >>> (32 - n)

/-- Extends sixteen words to eighty; the list holds the latest word first. -/
def extend : Nat → List UInt32 → List UInt32
  | 0, w => w
  | n + 1, w =>
    let next := w.getD 2 0 ^^^ w.getD 7 0 ^^^ w.getD 13 0 ^^^ w.getD 15 0
    extend n (turn next 1 :: w)

/-- The eighty words of a block in order. -/
def schedule (block : List UInt32) : List UInt32 := (extend 64 block.reverse).reverse

/-- The five words that a block stirs. -/
structure State where
  /-- The first word. -/
  a : UInt32
  /-- The second word. -/
  b : UInt32
  /-- The third word. -/
  c : UInt32
  /-- The fourth word. -/
  d : UInt32
  /-- The fifth word. -/
  e : UInt32

/-- The state in front of the first block. -/
def State.start : State := ⟨0x67452301, 0xefcdab89, 0x98badcfe, 0x10325476, 0xc3d2e1f0⟩

/-- The mixing function and the constant of round `t`. -/
def mix (t : Nat) (s : State) : UInt32 × UInt32 :=
  if t < 20 then ((s.b &&& s.c) ||| (~~~s.b &&& s.d), 0x5a827999)
  else if t < 40 then (s.b ^^^ s.c ^^^ s.d, 0x6ed9eba1)
  else if t < 60 then ((s.b &&& s.c) ||| (s.b &&& s.d) ||| (s.c &&& s.d), 0x8f1bbcdc)
  else (s.b ^^^ s.c ^^^ s.d, 0xca62c1d6)

/-- One round with one word of the schedule. -/
def round (s : State) (w : UInt32 × Nat) : State :=
  let (f, k) := mix w.2 s
  ⟨turn s.a 5 + f + s.e + k + w.1, s.a, turn s.b 30, s.c, s.d⟩

/-- Stirs one block into a state. -/
def absorb (s : State) (block : List UInt32) : State :=
  let r := (schedule block).zipIdx.foldl round s
  ⟨s.a + r.a, s.b + r.b, s.c + r.c, s.d + r.d, s.e + r.e⟩

/-! ## §3 Digests -/

/-- The state after all blocks of a message. -/
def finalState (message : List UInt8) : State :=
  let w := words (pad message)
  (blocks (w.length / 16) w).foldl absorb .start

/-- The eight hexadecimal digits of a word. -/
def hexWord (w : UInt32) : List Char :=
  [28, 24, 20, 16, 12, 8, 4, 0].map fun i => Nat.digitChar (w.toNat / 2 ^ i % 16)

/-- The digest of a message in hexadecimal. -/
def hexDigest (message : List UInt8) : List Char :=
  let s := finalState message
  hexWord s.a ++ hexWord s.b ++ hexWord s.c ++ hexWord s.d ++ hexWord s.e

end SpectrumPacking.Sha1
