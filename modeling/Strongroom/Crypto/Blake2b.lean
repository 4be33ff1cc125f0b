import Strongroom.Bytes

/-!
# BLAKE2b

The unkeyed hash function of RFC 7693, with an output of up to sixty-four bytes.
-/

namespace Strongroom.Blake2b

/-- The eight words of the initial state, and of the second half of every working vector. -/
def iv : Vector UInt64 8 :=
  #v[0x6a09e667f3bcc908, 0xbb67ae8584caa73b, 0x3c6ef372fe94f82b, 0xa54ff53a5f1d36f1,
    0x510e527fade682d1, 0x9b05688c2b3e6c1f, 0x1f83d9abfb41bd6b, 0x5be0cd19137e2179]

/-- The order in which each of the twelve rounds reads the words of a block. -/
def schedule : List (Vector (Fin 16) 16) :=
  [#v[0, 1, 2, 3, 4, 5, 6, 7, 8, 9, 10, 11, 12, 13, 14, 15],
   #v[14, 10, 4, 8, 9, 15, 13, 6, 1, 12, 0, 2, 11, 7, 5, 3],
   #v[11, 8, 12, 0, 5, 2, 15, 13, 10, 14, 3, 6, 7, 1, 9, 4],
   #v[7, 9, 3, 1, 13, 12, 11, 14, 2, 6, 5, 10, 4, 0, 15, 8],
   #v[9, 0, 5, 7, 2, 4, 10, 15, 14, 1, 11, 12, 6, 8, 3, 13],
   #v[2, 12, 6, 10, 0, 11, 8, 3, 4, 13, 7, 5, 15, 14, 1, 9],
   #v[12, 5, 1, 15, 14, 13, 4, 10, 0, 7, 6, 3, 9, 2, 8, 11],
   #v[13, 11, 7, 14, 12, 1, 3, 9, 5, 0, 15, 4, 8, 6, 2, 10],
   #v[6, 15, 14, 9, 11, 3, 0, 8, 12, 2, 13, 7, 1, 4, 10, 5],
   #v[10, 2, 8, 4, 7, 6, 1, 5, 15, 11, 9, 14, 3, 12, 13, 0],
   #v[0, 1, 2, 3, 4, 5, 6, 7, 8, 9, 10, 11, 12, 13, 14, 15],
   #v[14, 10, 4, 8, 9, 15, 13, 6, 1, 12, 0, 2, 11, 7, 5, 3]]

/-- Rotation to the right by `n` bits, for `0 < n < 64`. -/
@[inline] def rotateRight (x n : UInt64) : UInt64 :=
  (x >>> n) ||| (x <<< (64 - n))

/-- Mixes two message words into four words of the working vector. -/
def mix (v : Vector UInt64 16) (a b c d : Fin 16) (x y : UInt64) : Vector UInt64 16 :=
  let va := v[a] + v[b] + x
  let vd := rotateRight (v[d] ^^^ va) 32
  let vc := v[c] + vd
  let vb := rotateRight (v[b] ^^^ vc) 24
  let va := va + vb + y
  let vd := rotateRight (vd ^^^ va) 16
  let vc := vc + vd
  let vb := rotateRight (vb ^^^ vc) 63
  (((v.set a va).set b vb).set c vc).set d vd

/-- One round: the four columns of the working vector, then its four diagonals. -/
def round (m : Vector UInt64 16) (v : Vector UInt64 16) (order : Vector (Fin 16) 16) :
    Vector UInt64 16 :=
  let word := fun i : Fin 16 => m[order[i]]
  let v := mix v 0 4 8 12 (word 0) (word 1)
  let v := mix v 1 5 9 13 (word 2) (word 3)
  let v := mix v 2 6 10 14 (word 4) (word 5)
  let v := mix v 3 7 11 15 (word 6) (word 7)
  let v := mix v 0 5 10 15 (word 8) (word 9)
  let v := mix v 1 6 11 12 (word 10) (word 11)
  let v := mix v 2 7 8 13 (word 12) (word 13)
  mix v 3 4 9 14 (word 14) (word 15)

/-- Folds one block into the state; `count` bytes have been read with it, and `last` marks the
last block. -/
def compress (h : Vector UInt64 8) (m : Vector UInt64 16) (count : Nat) (last : Bool) :
    Vector UInt64 8 :=
  let v := h ++ iv
  let v := v.set 12 (v[12] ^^^ UInt64.ofNat count)
  let v := v.set 13 (v[13] ^^^ UInt64.ofNat (count / UInt64.size))
  let v := if last then v.set 14 (~~~ v[14]) else v
  let v := schedule.foldl (round m) v
  Vector.ofFn fun i : Fin 8 => h[i] ^^^ v[i] ^^^ v[i.val + 8]

/-- The byte at position `i` of the message, which zeros follow. -/
def byte (message : ByteArray) (i : Nat) : UInt8 :=
  if h : i < message.size then message[i] else 0

/-- The little-endian word at position `i` of the message. -/
def word (message : ByteArray) (i : Nat) : UInt64 :=
  (List.range 8).foldr (fun j w => (w <<< 8) ||| (byte message (i + j)).toUInt64) 0

/-- The block that starts at position `i` of the message. -/
def block (message : ByteArray) (i : Nat) : Vector UInt64 16 :=
  Vector.ofFn fun j => word message (i + 8 * j.val)

/-- The number of blocks of a message of `size` bytes; there is always one. -/
def blockCount (size : Nat) : Nat :=
  max 1 ((size + 127) / 128)

/-- The BLAKE2b hash of a message, `length` bytes long, for `0 < length ≤ 64`. -/
def hash (length : Nat) (message : Bytes) : Bytes :=
  let data := message.toByteArray
  let count := blockCount data.size
  let start := iv.set 0 (iv[0] ^^^ 0x01010000 ^^^ UInt64.ofNat length)
  let final := (List.range count).foldl (fun h i =>
    compress h (block data (128 * i)) (min data.size (128 * (i + 1))) (i + 1 == count)) start
  (final.toList.flatMap fun w => littleEndian 8 w.toNat).take length

end Strongroom.Blake2b
