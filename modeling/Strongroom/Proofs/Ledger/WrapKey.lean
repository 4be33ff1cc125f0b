import Strongroom.Ledger.Basic
import Strongroom.Proofs.Text.Ascii

/-!
# The keys of wraps

A wrap stands under the name of its secret, a zero byte and its number.  Three facts make this a
faithful layout of one list of wraps for each secret.  The key determines the name and the number
(`wrapKey_inj`).  Under one name the keys come in the order of the numbers
(`wrapKey_lt_iff_of_same`), and under two names in the order of the names
(`wrapKey_lt_of_utf8_lt`); here the greater name has to be free of zero bytes, as every name is that
`checkName` accepts.  And all keys under a name lie in the range that a scan for it covers
(`wrapsStart_le_wrapKey`, `wrapKey_lt_wrapsEnd`).
-/

namespace Strongroom

/-! ### The order of byte strings -/

theorem append_lt_append_left (a : Bytes) {b c : Bytes} : a ++ b < a ++ c ↔ b < c := by
  induction a with
  | nil => rfl
  | cons x a ih =>
    rw [List.cons_append, List.cons_append, List.cons_lt_cons_iff]
    simp [ih]

/-- Behind byte strings of one length, later bytes do not count. -/
theorem append_lt_append_of_lt {a b : Bytes} (hlen : a.length = b.length) (h : a < b)
    (c d : Bytes) : a ++ c < b ++ d := by
  induction a generalizing b with
  | nil =>
    cases b with
    | nil => exact absurd h (List.lt_irrefl [])
    | cons y b => simp at hlen
  | cons x a ih =>
    cases b with
    | nil => simp at hlen
    | cons y b =>
      rw [List.cons_lt_cons_iff] at h
      rw [List.cons_append, List.cons_append, List.cons_lt_cons_iff]
      rcases h with h | ⟨rfl, h⟩
      · exact .inl h
      · exact .inr ⟨rfl, ih (by simpa using hlen) h⟩

/-- What a lower byte string goes on with does not count, if it goes on with a byte that is lower
than every byte of the greater one. -/
theorem append_cons_lt_append {a b : Bytes} {x : UInt8} (hb : ∀ y ∈ b, x < y) (h : a < b)
    (c d : Bytes) : a ++ x :: c < b ++ d := by
  induction a generalizing b with
  | nil =>
    cases b with
    | nil => exact absurd h (List.lt_irrefl [])
    | cons y b =>
      rw [List.nil_append, List.cons_append, List.cons_lt_cons_iff]
      exact .inl (hb y List.mem_cons_self)
  | cons z a ih =>
    cases b with
    | nil => exact absurd h (List.not_lt_nil _)
    | cons y b =>
      rw [List.cons_lt_cons_iff] at h
      rw [List.cons_append, List.cons_append, List.cons_lt_cons_iff]
      rcases h with h | ⟨rfl, h⟩
      · exact .inl h
      · exact .inr ⟨rfl, ih (fun w hw => hb w (List.mem_cons_of_mem _ hw)) h⟩

/-! ### Numbers in bytes -/

theorem bigEndian_succ (width n : Nat) :
    bigEndian (width + 1) n = bigEndian width (n / 256) ++ [UInt8.ofNat (n % 256)] := by
  simp [bigEndian, littleEndian]

/-- Numbers of one width come in the order of their bytes. -/
theorem bigEndian_lt {width m n : Nat} (hn : n < Nat.pow 256 width) (h : m < n) :
    bigEndian width m < bigEndian width n := by
  induction width generalizing m n with
  | zero =>
    have : n < 1 := hn
    omega
  | succ width ih =>
    have hn' : n / 256 < Nat.pow 256 width := (Nat.div_lt_iff_lt_mul (by decide)).2 hn
    rw [bigEndian_succ, bigEndian_succ]
    by_cases hq : m / 256 < n / 256
    · exact append_lt_append_of_lt (by simp) (ih hn' hq) _ _
    · have hq' : m / 256 = n / 256 := by omega
      rw [hq', append_lt_append_left, List.cons_lt_cons_iff]
      left
      rw [UInt8.lt_iff_toNat_lt, UInt8.toNat_ofNat', UInt8.toNat_ofNat']
      omega

theorem toNat_lt_pow (n : UInt64) : n.toNat < Nat.pow 256 8 := n.toNat_lt

/-! ### Names -/

/-- A name that is accepted has no control characters, also in its bytes. -/
theorem blank_le_of_mem_utf8 {s : String} (h : s.toList.all Ledger.isNameChar = true) {b : UInt8}
    (hb : b ∈ utf8 s) : 0x20 ≤ b := by
  obtain ⟨c, hc, hb⟩ := mem_utf8_iff.1 hb
  have hname : Ledger.isNameChar c = true := List.all_eq_true.1 h c hc
  have hcontrol : 32 ≤ c.toNat := by
    rcases Nat.lt_or_ge c.toNat 32 with hlow | hhigh
    · rw [Ledger.isNameChar, Text.isControl, decide_eq_true hlow] at hname
      simp at hname
    · exact hhigh
  rw [UInt8.le_iff_toNat_le]
  show 32 ≤ b.toNat
  rcases of_mem_utf8EncodeChar hb with ⟨-, heq⟩ | ⟨-, hlarge⟩ <;> omega

/-- A name that is accepted has no zero byte. -/
theorem zero_notMem_utf8 {s : String} (h : s.toList.all Ledger.isNameChar = true) :
    (0 : UInt8) ∉ utf8 s := by
  intro h0
  exact absurd (blank_le_of_mem_utf8 h h0) (by decide)

namespace Ledger

/-! ### Keys -/

/-- **The key of a wrap determines its secret's name and its number.** -/
theorem wrapKey_inj {s t : String} {m n : UInt64} (h : wrapKey s m = wrapKey t n) :
    s = t ∧ m = n := by
  have hlen : (utf8 s).length = (utf8 t).length := by
    have := congrArg List.length h
    simpa [wrapKey] using this
  obtain ⟨hname, hnumber⟩ := List.append_inj h hlen
  have hdigits := (List.cons.inj hnumber).2
  have hnumbers := bigEndian_inj (toNat_lt_pow m) (toNat_lt_pow n) hdigits
  exact ⟨utf8_inj.1 hname, UInt64.toNat_inj.1 hnumbers⟩

theorem wrapKey_lt_of_lt (s : String) {m n : UInt64} (h : m < n) : wrapKey s m < wrapKey s n := by
  rw [wrapKey, wrapKey, append_lt_append_left, List.cons_lt_cons_iff]
  exact .inr ⟨rfl, bigEndian_lt (toNat_lt_pow n) h⟩

/-- Under one name the keys come in the order of the numbers. -/
theorem wrapKey_lt_iff_of_same {s : String} {m n : UInt64} :
    wrapKey s m < wrapKey s n ↔ m < n := by
  refine ⟨fun h => ?_, wrapKey_lt_of_lt s⟩
  rcases Std.lt_trichotomy m n with hlt | rfl | hgt
  · exact hlt
  · exact absurd h (List.lt_irrefl _)
  · exact absurd (Std.lt_trans h (wrapKey_lt_of_lt s hgt)) (List.lt_irrefl _)

/-- Under two names the keys come in the order of the names. -/
theorem wrapKey_lt_of_utf8_lt {s t : String} (ht : (0 : UInt8) ∉ utf8 t) (h : utf8 s < utf8 t)
    (m n : UInt64) : wrapKey s m < wrapKey t n := by
  apply append_cons_lt_append _ h
  intro y hy
  rw [UInt8.lt_iff_toNat_lt]
  apply Nat.pos_of_ne_zero
  intro hzero
  have hy0 : y = 0 := UInt8.toNat_inj.1 hzero
  exact ht (hy0 ▸ hy)

/-! ### Ranges -/

theorem wrapsStart_le_wrapKey (s : String) (n : UInt64) : wrapsStart s ≤ wrapKey s n := by
  apply Std.le_of_lt
  rw [wrapsStart, wrapKey, append_lt_append_left, List.cons_lt_cons_iff]
  refine .inr ⟨rfl, ?_⟩
  have hlen := length_bigEndian 8 n.toNat
  cases hb : bigEndian 8 n.toNat with
  | nil => simp [hb] at hlen
  | cons b bs => exact List.nil_lt_cons b bs

theorem wrapKey_lt_wrapsEnd (s : String) (n : UInt64) : wrapKey s n < wrapsEnd s := by
  rw [wrapsEnd, wrapKey, append_lt_append_left, List.cons_lt_cons_iff]
  exact .inl (by decide)

end Ledger

end Strongroom
