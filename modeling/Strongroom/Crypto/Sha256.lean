import Strongroom.Bytes

/-!
# SHA-256

The hash function of FIPS 180-4. The padded message is a function of the position of a byte, so it
is never written down as a whole; each block of sixty-four bytes is folded into eight words by
sixty-four rounds, and the message schedule is a window of sixteen words that moves along by one
word a round.
-/

namespace Strongroom.Sha256

/-- The eight words that one block after the other is folded into. -/
structure State where
  /-- The first word. -/
  a : UInt32
  /-- The second word. -/
  b : UInt32
  /-- The third word. -/
  c : UInt32
  /-- The fourth word. -/
  d : UInt32
  /-- The fifth word. -/
  e : UInt32
  /-- The sixth word. -/
  f : UInt32
  /-- The seventh word. -/
  g : UInt32
  /-- The eighth word. -/
  h : UInt32
  deriving DecidableEq

/-- The state before the first block. -/
def State.initial : State :=
  ⟨0x6a09e667, 0xbb67ae85, 0x3c6ef372, 0xa54ff53a, 0x510e527f, 0x9b05688c, 0x1f83d9ab, 0x5be0cd19⟩

/-- Word-wise sum modulo `2 ^ 32`. -/
def State.add (s t : State) : State :=
  ⟨s.a + t.a, s.b + t.b, s.c + t.c, s.d + t.d, s.e + t.e, s.f + t.f, s.g + t.g, s.h + t.h⟩

/-- The constant of each round. -/
def roundConstants : List UInt32 :=
  [0x428a2f98, 0x71374491, 0xb5c0fbcf, 0xe9b5dba5, 0x3956c25b, 0x59f111f1, 0x923f82a4, 0xab1c5ed5,
   0xd807aa98, 0x12835b01, 0x243185be, 0x550c7dc3, 0x72be5d74, 0x80deb1fe, 0x9bdc06a7, 0xc19bf174,
   0xe49b69c1, 0xefbe4786, 0x0fc19dc6, 0x240ca1cc, 0x2de92c6f, 0x4a7484aa, 0x5cb0a9dc, 0x76f988da,
   0x983e5152, 0xa831c66d, 0xb00327c8, 0xbf597fc7, 0xc6e00bf3, 0xd5a79147, 0x06ca6351, 0x14292967,
   0x27b70a85, 0x2e1b2138, 0x4d2c6dfc, 0x53380d13, 0x650a7354, 0x766a0abb, 0x81c2c92e, 0x92722c85,
   0xa2bfe8a1, 0xa81a664b, 0xc24b8b70, 0xc76c51a3, 0xd192e819, 0xd6990624, 0xf40e3585, 0x106aa070,
   0x19a4c116, 0x1e376c08, 0x2748774c, 0x34b0bcb5, 0x391c0cb3, 0x4ed8aa4a, 0x5b9cca4f, 0x682e6ff3,
   0x748f82ee, 0x78a5636f, 0x84c87814, 0x8cc70208, 0x90befffa, 0xa4506ceb, 0xbef9a3f7, 0xc67178f2]

/-- Rotation to the right by `n` bits, for `0 < n < 32`. -/
@[inline] def rotateRight (x n : UInt32) : UInt32 :=
  (x >>> n) ||| (x <<< (32 - n))

/-- Runs a round for each constant. The words `w0` to `w15` are the window of the message schedule
and `a` to `h` the working state. -/
def rounds (constants : List UInt32)
    (w0 w1 w2 w3 w4 w5 w6 w7 w8 w9 w10 w11 w12 w13 w14 w15 a b c d e f g h : UInt32) : State :=
  match constants with
  | [] => ⟨a, b, c, d, e, f, g, h⟩
  | k :: constants =>
    let s1 := rotateRight e 6 ^^^ rotateRight e 11 ^^^ rotateRight e 25
    let choice := (e &&& f) ^^^ (~~~e &&& g)
    let t1 := h + s1 + choice + k + w0
    let s0 := rotateRight a 2 ^^^ rotateRight a 13 ^^^ rotateRight a 22
    let majority := (a &&& b) ^^^ (a &&& c) ^^^ (b &&& c)
    let r0 := rotateRight w1 7 ^^^ rotateRight w1 18 ^^^ (w1 >>> 3)
    let r1 := rotateRight w14 17 ^^^ rotateRight w14 19 ^^^ (w14 >>> 10)
    rounds constants w1 w2 w3 w4 w5 w6 w7 w8 w9 w10 w11 w12 w13 w14 w15 (w0 + r0 + w9 + r1)
      (t1 + s0 + majority) a b c (d + t1) e f g

/-- The number of blocks of a message of `size` bytes: behind the message stand a byte `0x80` and
the message's length in eight bytes. -/
def blockCount (size : Nat) : Nat :=
  (size + 9 + 63) / 64

/-- The byte at position `i` of the padded message. -/
def paddedByte (message : ByteArray) (i : Nat) : UInt8 :=
  if h : i < message.size then message[i]
  else if i = message.size then 0x80
  else
    let fromEnd := 64 * blockCount message.size - 1 - i
    if fromEnd < 8 then UInt8.ofNat ((message.size * 8) >>> (8 * fromEnd) % 256) else 0

/-- The big-endian word at position `i` of the padded message. -/
def paddedWord (message : ByteArray) (i : Nat) : UInt32 :=
  ((paddedByte message i).toUInt32 <<< 24) ||| ((paddedByte message (i + 1)).toUInt32 <<< 16) |||
    ((paddedByte message (i + 2)).toUInt32 <<< 8) ||| (paddedByte message (i + 3)).toUInt32

/-- Folds the block that starts at position `i` of the padded message into the state. -/
def compress (message : ByteArray) (s : State) (i : Nat) : State :=
  let w := fun j => paddedWord message (i + 4 * j)
  s.add (rounds roundConstants (w 0) (w 1) (w 2) (w 3) (w 4) (w 5) (w 6) (w 7) (w 8) (w 9) (w 10)
    (w 11) (w 12) (w 13) (w 14) (w 15) s.a s.b s.c s.d s.e s.f s.g s.h)

/-- The words of a state, in big-endian bytes. -/
def State.toBytes (s : State) : Bytes :=
  [s.a, s.b, s.c, s.d, s.e, s.f, s.g, s.h].flatMap fun w => bigEndian 4 w.toNat

theorem State.length_toBytes (s : State) : s.toBytes.length = 32 := by
  simp [State.toBytes]

/-- The SHA-256 hash of a message. -/
def hash (message : Bytes) : Octets 32 :=
  let data := message.toByteArray
  let final := (List.range (blockCount data.size)).foldl (fun s i => compress data s (64 * i))
    State.initial
  ⟨final.toBytes, final.length_toBytes⟩

end Strongroom.Sha256
