/-!
# Byte strings

A byte string is a list of bytes. Text enters and leaves the library in UTF-8, and numbers in
fixed-width big-endian or little-endian form. Main statements: text is read back from its own
bytes and only from them (`ofUtf8?_eq_some_iff`), and different numbers below `256 ^ width` have
different big-endian bytes (`ofBigEndian_bigEndian`).
-/

namespace Strongroom

/-- A string of bytes. -/
abbrev Bytes := List UInt8

/-- The order of byte strings, in which the first difference decides. -/
instance Bytes.lawfulOrderLT : Std.LawfulOrderLT Bytes := inferInstance

/-! ### Text -/

/-- The UTF-8 bytes of a text. -/
def utf8 (s : String) : Bytes :=
  s.toByteArray.data.toList

/-- The text that a byte string spells in UTF-8, when it spells one. -/
def ofUtf8? (b : Bytes) : Option String :=
  String.fromUTF8? ⟨b.toArray⟩

theorem ofUtf8?_eq_some_iff {b : Bytes} {s : String} : ofUtf8? b = some s ↔ b = utf8 s := by
  unfold ofUtf8? String.fromUTF8? utf8
  constructor
  · intro h
    split at h
    · next hv =>
      obtain rfl := Option.some.inj h
      simp [String.fromUTF8]
    · simp at h
  · rintro rfl
    have hv : ByteArray.IsValidUTF8 ⟨s.toByteArray.data.toList.toArray⟩ := by
      simpa using s.isValidUTF8
    rw [dif_pos hv]
    simp [String.fromUTF8]

theorem ofUtf8?_utf8 (s : String) : ofUtf8? (utf8 s) = some s :=
  ofUtf8?_eq_some_iff.2 rfl

theorem utf8_inj {s t : String} : utf8 s = utf8 t ↔ s = t := by
  constructor
  · intro h
    have hs := ofUtf8?_utf8 s
    rw [h, ofUtf8?_utf8] at hs
    exact (Option.some.inj hs).symm
  · rintro rfl
    rfl

@[simp] theorem utf8_empty : utf8 "" = [] := rfl

/-- The bytes of a text are those of its characters in turn. -/
theorem utf8_ofList (cs : List Char) :
    utf8 (String.ofList cs) = cs.flatMap String.utf8EncodeChar := by
  rw [utf8, String.toByteArray_ofList, List.utf8Encode]
  simp

/-! ### Fixed-width numbers -/

/-- The `width` lowest base-256 digits of `n`, least significant first. -/
def littleEndian : (width n : Nat) → Bytes
  | 0, _ => []
  | width + 1, n => UInt8.ofNat (n % 256) :: littleEndian width (n / 256)

/-- The `width` lowest base-256 digits of `n`, most significant first. -/
def bigEndian (width : Nat) (n : Nat) : Bytes :=
  (littleEndian width n).reverse

/-- The number whose base-256 digits are given least significant first. -/
def ofLittleEndian (b : Bytes) : Nat :=
  b.foldr (fun digit n => digit.toNat + 256 * n) 0

/-- The number whose base-256 digits are given most significant first. -/
def ofBigEndian (b : Bytes) : Nat :=
  b.foldl (fun n digit => 256 * n + digit.toNat) 0

@[simp] theorem length_littleEndian (width n : Nat) : (littleEndian width n).length = width := by
  induction width generalizing n with
  | zero => rfl
  | succ width ih => rw [littleEndian, List.length_cons, ih]

@[simp] theorem length_bigEndian (width n : Nat) : (bigEndian width n).length = width := by
  simp [bigEndian]

theorem ofLittleEndian_littleEndian (width n : Nat) (h : n < Nat.pow 256 width) :
    ofLittleEndian (littleEndian width n) = n := by
  induction width generalizing n with
  | zero =>
    obtain rfl : n = 0 := Nat.lt_one_iff.1 h
    rfl
  | succ width ih =>
    have hn : n / 256 < Nat.pow 256 width := (Nat.div_lt_iff_lt_mul (by decide)).2 h
    have := ih (n / 256) hn
    rw [littleEndian]
    simp only [ofLittleEndian, List.foldr_cons] at this ⊢
    rw [this]
    simp
    omega

theorem ofBigEndian_bigEndian (width n : Nat) (h : n < Nat.pow 256 width) :
    ofBigEndian (bigEndian width n) = n := by
  rw [bigEndian, ofBigEndian, List.foldl_reverse]
  have := ofLittleEndian_littleEndian width n h
  rw [ofLittleEndian] at this
  simpa [Nat.add_comm] using this

theorem bigEndian_inj {width m n : Nat} (hm : m < Nat.pow 256 width) (hn : n < Nat.pow 256 width)
    (h : bigEndian width m = bigEndian width n) : m = n := by
  have hm' := ofBigEndian_bigEndian width m hm
  have hn' := ofBigEndian_bigEndian width n hn
  rw [h] at hm'
  exact hm'.symm.trans hn'

theorem ofLittleEndian_append (xs ys : Bytes) :
    ofLittleEndian (xs ++ ys) = ofLittleEndian xs + Nat.pow 256 xs.length * ofLittleEndian ys := by
  induction xs with
  | nil => simp [ofLittleEndian]
  | cons x xs ih =>
    have hpow : Nat.pow 256 (xs.length + 1) = 256 * Nat.pow 256 xs.length := Nat.mul_comm _ _
    simp only [ofLittleEndian, List.cons_append, List.foldr_cons, List.length_cons] at ih ⊢
    rw [ih, hpow, Nat.mul_add, Nat.mul_assoc, Nat.add_assoc]

/-! ### Byte strings of a given length -/

/-- A byte string of exactly `n` bytes. -/
structure Octets (n : Nat) where
  /-- The bytes themselves. -/
  bytes : Bytes
  length_eq : bytes.length = n
  deriving DecidableEq

namespace Octets

theorem eq_of_bytes {n : Nat} {x y : Octets n} (h : x.bytes = y.bytes) : x = y := by
  cases x
  cases y
  cases h
  rfl

/-- A byte string as one of exactly `n` bytes, when it has that length. -/
def ofBytes? (n : Nat) (b : Bytes) : Option (Octets n) :=
  if h : b.length = n then some ⟨b, h⟩ else none

/-- The first `n` bytes of a byte string, filled up with zeros where it is too short. -/
def ofPadded (n : Nat) (b : Bytes) : Octets n :=
  ⟨(b ++ List.replicate n 0).take n, by simp⟩

/-- `n` zero bytes. -/
def zero (n : Nat) : Octets n :=
  ⟨List.replicate n 0, by simp⟩

end Octets

end Strongroom
