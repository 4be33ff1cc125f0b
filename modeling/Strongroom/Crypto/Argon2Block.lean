import Strongroom.Bytes

/-!
# The blocks of Argon2

The memory that Argon2 fills consists of blocks of 1024 bytes, seen as eight rows of sixteen words.
Two blocks are compressed into one by permuting the rows of their sum, then its columns, and adding
the sum again. A column is two words wide, so the columns of a block are the rows of its transpose.
-/

namespace Strongroom.Argon2

/-- Sixteen words: a row of a block, or a column two words wide. -/
structure Row where
  w0 : UInt64
  w1 : UInt64
  w2 : UInt64
  w3 : UInt64
  w4 : UInt64
  w5 : UInt64
  w6 : UInt64
  w7 : UInt64
  w8 : UInt64
  w9 : UInt64
  w10 : UInt64
  w11 : UInt64
  w12 : UInt64
  w13 : UInt64
  w14 : UInt64
  w15 : UInt64

namespace Row

/-- The row of sixteen zeros. -/
def zero : Row := ⟨0, 0, 0, 0, 0, 0, 0, 0, 0, 0, 0, 0, 0, 0, 0, 0⟩

/-- The words of a row in order. -/
def words (r : Row) : List UInt64 :=
  [r.w0, r.w1, r.w2, r.w3, r.w4, r.w5, r.w6, r.w7, r.w8, r.w9, r.w10, r.w11, r.w12, r.w13, r.w14,
    r.w15]

/-- The row whose words are `word 0` to `word 15`. -/
def ofFn (word : Nat → UInt64) : Row :=
  ⟨word 0, word 1, word 2, word 3, word 4, word 5, word 6, word 7, word 8, word 9, word 10, word 11,
    word 12, word 13, word 14, word 15⟩

/-- Word-wise sum modulo two. -/
def xor (r s : Row) : Row :=
  ⟨r.w0 ^^^ s.w0, r.w1 ^^^ s.w1, r.w2 ^^^ s.w2, r.w3 ^^^ s.w3, r.w4 ^^^ s.w4, r.w5 ^^^ s.w5,
    r.w6 ^^^ s.w6, r.w7 ^^^ s.w7, r.w8 ^^^ s.w8, r.w9 ^^^ s.w9, r.w10 ^^^ s.w10, r.w11 ^^^ s.w11,
    r.w12 ^^^ s.w12, r.w13 ^^^ s.w13, r.w14 ^^^ s.w14, r.w15 ^^^ s.w15⟩

/-- The sum of two words and twice the product of their lower halves. -/
@[inline] def blend (x y : UInt64) : UInt64 :=
  x + y + 2 * (x &&& 0xffffffff) * (y &&& 0xffffffff)

/-- Rotation to the right by `n` bits, for `0 < n < 64`. -/
@[inline] def rotateRight (x n : UInt64) : UInt64 :=
  (x >>> n) ||| (x <<< (64 - n))

/-- Mixes the words `a`, `b`, `c` and `d` and hands them on. -/
@[inline] def mix {α : Type} (a b c d : UInt64)
    (next : UInt64 → UInt64 → UInt64 → UInt64 → α) : α :=
  let a := blend a b
  let d := rotateRight (d ^^^ a) 32
  let c := blend c d
  let b := rotateRight (b ^^^ c) 24
  let a := blend a b
  let d := rotateRight (d ^^^ a) 16
  let c := blend c d
  let b := rotateRight (b ^^^ c) 63
  next a b c d

/-- Permutes a row: seen as a square of four by four words, first its columns are mixed, then its
diagonals. -/
def permute (r : Row) : Row :=
  mix r.w0 r.w4 r.w8 r.w12 fun v0 v4 v8 v12 =>
  mix r.w1 r.w5 r.w9 r.w13 fun v1 v5 v9 v13 =>
  mix r.w2 r.w6 r.w10 r.w14 fun v2 v6 v10 v14 =>
  mix r.w3 r.w7 r.w11 r.w15 fun v3 v7 v11 v15 =>
  mix v0 v5 v10 v15 fun v0 v5 v10 v15 =>
  mix v1 v6 v11 v12 fun v1 v6 v11 v12 =>
  mix v2 v7 v8 v13 fun v2 v7 v8 v13 =>
  mix v3 v4 v9 v14 fun v3 v4 v9 v14 =>
  ⟨v0, v1, v2, v3, v4, v5, v6, v7, v8, v9, v10, v11, v12, v13, v14, v15⟩

end Row

/-- A block of eight rows. -/
structure Block where
  /-- Row 0. -/
  r0 : Row
  /-- Row 1. -/
  r1 : Row
  /-- Row 2. -/
  r2 : Row
  /-- Row 3. -/
  r3 : Row
  /-- Row 4. -/
  r4 : Row
  /-- Row 5. -/
  r5 : Row
  /-- Row 6. -/
  r6 : Row
  /-- Row 7. -/
  r7 : Row

namespace Block

/-- The block of zeros. -/
def zero : Block :=
  ⟨.zero, .zero, .zero, .zero, .zero, .zero, .zero, .zero⟩

/-- The rows of a block in order. -/
def rows (b : Block) : List Row :=
  [b.r0, b.r1, b.r2, b.r3, b.r4, b.r5, b.r6, b.r7]

/-- The block whose rows are `row 0` to `row 7`. -/
def ofFn (row : Nat → Row) : Block :=
  ⟨row 0, row 1, row 2, row 3, row 4, row 5, row 6, row 7⟩

/-- The words of a block in order. -/
def words (b : Block) : List UInt64 :=
  b.rows.flatMap Row.words

/-- Word-wise sum modulo two. -/
def xor (b c : Block) : Block :=
  ⟨b.r0.xor c.r0, b.r1.xor c.r1, b.r2.xor c.r2, b.r3.xor c.r3, b.r4.xor c.r4, b.r5.xor c.r5,
    b.r6.xor c.r6, b.r7.xor c.r7⟩

/-- Permutes every row. -/
def permuteRows (b : Block) : Block :=
  ⟨b.r0.permute, b.r1.permute, b.r2.permute, b.r3.permute, b.r4.permute, b.r5.permute,
    b.r6.permute, b.r7.permute⟩

/-- The block whose rows are the columns of `b`, two words wide. -/
def transpose : Block → Block
  | ⟨a, b, c, d, e, f, g, h⟩ =>
    ⟨⟨a.w0, a.w1, b.w0, b.w1, c.w0, c.w1, d.w0, d.w1, e.w0, e.w1, f.w0, f.w1, g.w0, g.w1, h.w0,
        h.w1⟩,
      ⟨a.w2, a.w3, b.w2, b.w3, c.w2, c.w3, d.w2, d.w3, e.w2, e.w3, f.w2, f.w3, g.w2, g.w3, h.w2,
        h.w3⟩,
      ⟨a.w4, a.w5, b.w4, b.w5, c.w4, c.w5, d.w4, d.w5, e.w4, e.w5, f.w4, f.w5, g.w4, g.w5, h.w4,
        h.w5⟩,
      ⟨a.w6, a.w7, b.w6, b.w7, c.w6, c.w7, d.w6, d.w7, e.w6, e.w7, f.w6, f.w7, g.w6, g.w7, h.w6,
        h.w7⟩,
      ⟨a.w8, a.w9, b.w8, b.w9, c.w8, c.w9, d.w8, d.w9, e.w8, e.w9, f.w8, f.w9, g.w8, g.w9, h.w8,
        h.w9⟩,
      ⟨a.w10, a.w11, b.w10, b.w11, c.w10, c.w11, d.w10, d.w11, e.w10, e.w11, f.w10, f.w11, g.w10,
        g.w11, h.w10, h.w11⟩,
      ⟨a.w12, a.w13, b.w12, b.w13, c.w12, c.w13, d.w12, d.w13, e.w12, e.w13, f.w12, f.w13, g.w12,
        g.w13, h.w12, h.w13⟩,
      ⟨a.w14, a.w15, b.w14, b.w15, c.w14, c.w15, d.w14, d.w15, e.w14, e.w15, f.w14, f.w15, g.w14,
        g.w15, h.w14, h.w15⟩⟩

theorem transpose_transpose (b : Block) : b.transpose.transpose = b := rfl

/-- The compression function: the sum of two blocks, permuted by rows and by columns, plus the sum
itself. -/
def compress (x y : Block) : Block :=
  let sum := x.xor y
  sum.permuteRows.transpose.permuteRows.transpose.xor sum

/-- The block that a byte string of 1024 bytes spells in little-endian words. -/
def ofBytes (b : Bytes) : Block :=
  let data := b.toArray
  let word := fun i => UInt64.ofNat (ofLittleEndian ((List.range 8).map fun j =>
    data.getD (8 * i + j) 0))
  ofFn fun i => Row.ofFn fun j => word (16 * i + j)

/-- The words of a block, in little-endian bytes. -/
def toBytes (b : Block) : Bytes :=
  b.words.flatMap fun w => littleEndian 8 w.toNat

end Block

end Strongroom.Argon2
