import Strongroom.Bytes

/-!
# ChaCha20

The block function of RFC 8439, the stream cipher made from it, and the HChaCha20 key derivation
that gives the cipher its nonce of twenty-four bytes. The sixteen words that the rounds work on are
the four rows of a square. A round does the same to all columns at once, so it is written on whole
rows; the diagonals are the columns of the square with its rows turned.
-/

namespace Strongroom.ChaCha20

/-- A row of four words. -/
structure Row where
  /-- The first word. -/
  x0 : UInt32
  /-- The second word. -/
  x1 : UInt32
  /-- The third word. -/
  x2 : UInt32
  /-- The fourth word. -/
  x3 : UInt32
  deriving DecidableEq, Repr

namespace Row

/-- Combines two rows word by word. -/
@[inline] def zip (f : UInt32 → UInt32 → UInt32) (x y : Row) : Row :=
  ⟨f x.x0 y.x0, f x.x1 y.x1, f x.x2 y.x2, f x.x3 y.x3⟩

/-- The word-wise sum. -/
@[inline] def add (x y : Row) : Row := zip (· + ·) x y

/-- Adds a row without carries and rotates all words to the left by `n` bits, for `0 < n < 32`. -/
@[inline] def mix (x y : Row) (n : UInt32) : Row :=
  zip (fun a b => ((a ^^^ b) <<< n) ||| ((a ^^^ b) >>> (32 - n))) x y

/-- Turns a row to the left by one word. -/
@[inline] def turn (x : Row) : Row := ⟨x.x1, x.x2, x.x3, x.x0⟩

/-- The words of a row. -/
def words (x : Row) : List UInt32 := [x.x0, x.x1, x.x2, x.x3]

end Row

/-- A square of four rows. -/
structure Square where
  /-- The first row. -/
  a : Row
  /-- The second row. -/
  b : Row
  /-- The third row. -/
  c : Row
  /-- The fourth row. -/
  d : Row
  deriving DecidableEq, Repr

namespace Square

/-- The quarter round on every column. -/
def columns (s : Square) : Square :=
  let a := s.a.add s.b
  let d := s.d.mix a 16
  let c := s.c.add d
  let b := s.b.mix c 12
  let a := a.add b
  let d := d.mix a 8
  let c := c.add d
  let b := b.mix c 7
  ⟨a, b, c, d⟩

/-- The quarter round on every diagonal. -/
def diagonals (s : Square) : Square :=
  let s := columns ⟨s.a, s.b.turn, s.c.turn.turn, s.d.turn.turn.turn⟩
  ⟨s.a, s.b.turn.turn.turn, s.c.turn.turn, s.d.turn⟩

/-- `n` double rounds, each one over the columns and one over the diagonals. -/
def doubleRounds (s : Square) : (n : Nat) → Square
  | 0 => s
  | n + 1 => s.columns.diagonals.doubleRounds n

/-- The word-wise sum. -/
def add (s t : Square) : Square :=
  ⟨s.a.add t.a, s.b.add t.b, s.c.add t.c, s.d.add t.d⟩

/-- The words of a square, row by row. -/
def words (s : Square) : List UInt32 :=
  s.a.words ++ s.b.words ++ s.c.words ++ s.d.words

end Square

/-- The little-endian word at position `i` of a byte string. -/
def word (b : Bytes) (i : Nat) : UInt32 :=
  UInt32.ofNat (ofLittleEndian ((b.drop i).take 4))

/-- The row at position `i` of a byte string. -/
def row (b : Bytes) (i : Nat) : Row :=
  ⟨word b i, word b (i + 4), word b (i + 8), word b (i + 12)⟩

/-- The square for a key and sixteen bytes of input. -/
def start (key : Octets 32) (input : Octets 16) : Square :=
  ⟨⟨0x61707865, 0x3320646e, 0x79622d32, 0x6b206574⟩, row key.bytes 0, row key.bytes 16,
    row input.bytes 0⟩

/-- Words as little-endian bytes. -/
def toBytes (w : List UInt32) : Bytes :=
  w.flatMap fun x => littleEndian 4 x.toNat

/-- Sixty-four bytes of keystream. -/
def block (key : Octets 32) (nonce : Octets 12) (counter : Nat) : Bytes :=
  let s := start key ⟨littleEndian 4 counter ++ nonce.bytes, by simp [nonce.length_eq]⟩
  toBytes (s.add (s.doubleRounds 10)).words

/-- The keystream of at least `length` bytes from the block number `counter` on. -/
def keystream (key : Octets 32) (nonce : Octets 12) (counter length : Nat) : Bytes :=
  (List.range ((length + 63) / 64)).flatMap fun i => block key nonce (counter + i)

/-- Adds the keystream to a byte string; doing so twice gives the byte string back. -/
def apply (key : Octets 32) (nonce : Octets 12) (counter : Nat) (b : Bytes) : Bytes :=
  b.zipWith (· ^^^ ·) (keystream key nonce counter b.length)

/-- The key derived from a key and sixteen bytes of nonce. -/
def deriveKey (key : Octets 32) (nonce : Octets 16) : Octets 32 :=
  let s := (start key nonce).doubleRounds 10
  ⟨toBytes (s.a.words ++ s.d.words), by simp [toBytes, Row.words]⟩

end Strongroom.ChaCha20
