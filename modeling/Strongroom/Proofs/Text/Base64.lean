import Mathlib.Data.List.Basic
import Strongroom.Text.Base64

/-!
# What is written in base64 is read back

Writing and reading walk the groups alike.  A full group of three bytes becomes four digits whose
values are its sixteen bits and more, cut at every sixth, and reading joins them again; the last
group is told from a full one by its padding.  So every byte string is read back from its text
(`decode?_encode`).

The other way round, reading accepts one spelling only, for a digit is known by its value and the
bits that padding leaves over must be zero.  So a text that is read is the one that is written
(`encode_of_decode?`).  What that spelling looks like is said without reading or writing
(`Strict`), and the texts that are written are just those that look so (`isStrict_iff`).
-/

namespace Strongroom.Base64

/-! ### Digits -/

theorem value?_digit : ∀ n < 64, value? (digit n) = some n := by
  decide

theorem digit_ne_padding : ∀ n < 64, digit n ≠ '=' := by
  decide

/-! ### Groups -/

theorem ofNat_eq {a : UInt8} {n : Nat} (h : n = a.toNat) : UInt8.ofNat n = a := by
  rw [h, UInt8.ofNat_toNat]

theorem encodeChars_group (a b c : UInt8) (rest : Bytes) :
    encodeChars (a :: b :: c :: rest) = encodeGroup a b c ++ encodeChars rest := by
  rw [encodeChars, encodeOnto, encodeOnto_append]
  simp [List.reverseAux_eq]

/-- The values of four digits make up the three bytes again. -/
theorem decodeGroup_digits (a b c : UInt8) :
    decodeGroup (a.toNat / 4) (a.toNat % 4 * 16 + b.toNat / 16) (b.toNat % 16 * 4 + c.toNat / 64)
      (c.toNat % 64) = [a, b, c] := by
  have ha := a.toNat_lt
  have hb := b.toNat_lt
  have hc := c.toNat_lt
  rw [decodeGroup, ofNat_eq (a := a) (by omega), ofNat_eq (a := b) (by omega),
    ofNat_eq (a := c) (by omega)]

/-- A full group is read off the front, whether or not it is the last. -/
theorem decodeChars?_group (a b c : UInt8) (cs : List Char) :
    decodeChars? (encodeGroup a b c ++ cs) = (decodeChars? cs).map ([a, b, c] ++ ·) := by
  have ha := a.toNat_lt
  have hb := b.toNat_lt
  have hw := value?_digit (a.toNat / 4) (by omega)
  have hx := value?_digit (a.toNat % 4 * 16 + b.toNat / 16) (by omega)
  have hy := value?_digit (b.toNat % 16 * 4 + c.toNat / 64) (by have := c.toNat_lt; omega)
  have hz := value?_digit (c.toNat % 64) (by omega)
  cases cs with
  | nil =>
    have hlast : digit (c.toNat % 64) ≠ '=' := digit_ne_padding _ (by omega)
    simp [encodeGroup, decodeChars?, decodeOnto?, decodeLast?, hw, hx, hy, hz, hlast,
      decodeGroup_digits]
  | cons d ds =>
    have hmore := decodeOnto?_append ([a, b, c].reverseAux []) (d :: ds)
    simpa [encodeGroup, decodeChars?, decodeOnto?, hw, hx, hy, hz, decodeGroup_digits]
      using hmore

theorem decodeChars?_pair (a b : UInt8) : decodeChars? (encodePair a b) = some [a, b] := by
  have ha := a.toNat_lt
  have hb := b.toNat_lt
  have hw := value?_digit (a.toNat / 4) (by omega)
  have hx := value?_digit (a.toNat % 4 * 16 + b.toNat / 16) (by omega)
  have hy := value?_digit (b.toNat % 16 * 4) (by omega)
  have hfull : digit (b.toNat % 16 * 4) ≠ '=' := digit_ne_padding _ (by omega)
  have hbits : b.toNat % 16 * 4 % 4 = 0 := by omega
  have hfirst : UInt8.ofNat (a.toNat / 4 * 4 + (a.toNat % 4 * 16 + b.toNat / 16) / 16) = a :=
    ofNat_eq (by omega)
  have hsecond : UInt8.ofNat ((a.toNat % 4 * 16 + b.toNat / 16) % 16 * 16 +
      b.toNat % 16 * 4 / 4) = b := ofNat_eq (by omega)
  simp only [encodePair, decodeChars?, decodeOnto?, decodeLast?, hw, hx, hy, hbits, hfirst, hsecond,
    if_neg hfull, if_true, Option.bind_eq_bind, Option.bind_some, Option.map_some]
  rfl

theorem decodeChars?_single (a : UInt8) : decodeChars? (encodeSingle a) = some [a] := by
  have ha := a.toNat_lt
  have hw := value?_digit (a.toNat / 4) (by omega)
  have hx := value?_digit (a.toNat % 4 * 16) (by omega)
  have hbits : a.toNat % 4 * 16 % 16 = 0 := by omega
  have hfirst : UInt8.ofNat (a.toNat / 4 * 4 + a.toNat % 4 * 16 / 16) = a := ofNat_eq (by omega)
  simp only [encodeSingle, decodeChars?, decodeOnto?, decodeLast?, hw, hx, hbits, hfirst, if_true,
    Option.bind_eq_bind, Option.bind_some, Option.map_some]
  rfl

/-! ### Texts -/

theorem decodeChars?_encodeChars : (b : Bytes) → decodeChars? (encodeChars b) = some b
  | [] => rfl
  | [a] => decodeChars?_single a
  | [a, b] => decodeChars?_pair a b
  | a :: b :: c :: rest => by
    rw [encodeChars_group, decodeChars?_group, decodeChars?_encodeChars rest]
    rfl

/-- **Every byte string is read back from its text.** -/
theorem decode?_encode (b : Bytes) : decode? (encode b) = some b := by
  rw [decode?, encode, String.toList_ofList, decodeChars?_encodeChars]

/-! ### One spelling -/

/-- A digit is known by its value. -/
theorem digit_of_value? {c : Char} {n : Nat} (h : value? c = some n) : n < 64 ∧ digit n = c := by
  have hc : Char.ofNat c.toNat = c := Char.ofNat_toNat c
  rw [value?] at h
  split at h
  · next hrange =>
    have hlow : 65 ≤ c.toNat := hrange.1
    have hhigh : c.toNat ≤ 90 := hrange.2
    obtain rfl := Option.some.inj h
    rw [digit, if_pos (by omega), Nat.sub_add_cancel hlow]
    exact ⟨by omega, hc⟩
  split at h
  · next hrange =>
    have hlow : 97 ≤ c.toNat := hrange.1
    have hhigh : c.toNat ≤ 122 := hrange.2
    obtain rfl := Option.some.inj h
    rw [digit, if_neg (by omega), if_pos (by omega), Nat.add_sub_cancel, Nat.sub_add_cancel hlow]
    exact ⟨by omega, hc⟩
  split at h
  · next hrange =>
    have hlow : 48 ≤ c.toNat := hrange.1
    have hhigh : c.toNat ≤ 57 := hrange.2
    obtain rfl := Option.some.inj h
    rw [digit, if_neg (by omega), if_neg (by omega), if_pos (by omega), Nat.add_sub_cancel,
      Nat.sub_add_cancel hlow]
    exact ⟨by omega, hc⟩
  split at h
  · next hplus =>
    obtain rfl := Option.some.inj h
    exact ⟨by decide, hplus.symm⟩
  split at h
  · next hslash =>
    obtain rfl := Option.some.inj h
    exact ⟨by decide, hslash.symm⟩
  · cases h

theorem toNat_ofNat {n : Nat} (h : n < 256) : (UInt8.ofNat n).toNat = n :=
  UInt8.toNat_ofNat_of_lt h

/-- The bytes of four digits are cut into the digits again. -/
theorem encodeChars_decodeGroup {w x y z : Nat} (hw : w < 64) (hx : x < 64) (hy : y < 64)
    (hz : z < 64) (rest : Bytes) :
    encodeChars (decodeGroup w x y z ++ rest) =
      [digit w, digit x, digit y, digit z] ++ encodeChars rest := by
  have hgroup : encodeGroup (UInt8.ofNat (w * 4 + x / 16)) (UInt8.ofNat (x % 16 * 16 + y / 4))
      (UInt8.ofNat (y % 4 * 64 + z)) = [digit w, digit x, digit y, digit z] := by
    have hfirst : (w * 4 + x / 16) / 4 = w := by omega
    have hsecond : (w * 4 + x / 16) % 4 * 16 + (x % 16 * 16 + y / 4) / 16 = x := by omega
    have hthird : (x % 16 * 16 + y / 4) % 16 * 4 + (y % 4 * 64 + z) / 64 = y := by omega
    have hfourth : (y % 4 * 64 + z) % 64 = z := by omega
    rw [encodeGroup, toNat_ofNat (by omega), toNat_ofNat (by omega), toNat_ofNat (by omega),
      hfirst, hsecond, hthird, hfourth]
  rw [← hgroup]
  exact encodeChars_group _ _ _ rest

theorem encodePair_ofNat {w x y : Nat} (hw : w < 64) (hx : x < 64) (hy : y < 64)
    (hbits : y % 4 = 0) :
    encodePair (UInt8.ofNat (w * 4 + x / 16)) (UInt8.ofNat (x % 16 * 16 + y / 4)) =
      [digit w, digit x, digit y, '='] := by
  have hfirst : (w * 4 + x / 16) / 4 = w := by omega
  have hsecond : (w * 4 + x / 16) % 4 * 16 + (x % 16 * 16 + y / 4) / 16 = x := by omega
  have hthird : (x % 16 * 16 + y / 4) % 16 * 4 = y := by omega
  rw [encodePair, toNat_ofNat (by omega), toNat_ofNat (by omega), hfirst, hsecond, hthird]

theorem encodeSingle_ofNat {w x : Nat} (hw : w < 64) (hx : x < 64) (hbits : x % 16 = 0) :
    encodeSingle (UInt8.ofNat (w * 4 + x / 16)) = [digit w, digit x, '=', '='] := by
  have hfirst : (w * 4 + x / 16) / 4 = w := by omega
  have hsecond : (w * 4 + x / 16) % 4 * 16 = x := by omega
  rw [encodeSingle, toNat_ofNat (by omega), hfirst, hsecond]

/-- The last group is full or padded, and its padding says how many bytes it has. -/
theorem encodeChars_of_decodeLast? {w x y z : Char} {b : Bytes}
    (h : decodeLast? w x y z = some b) : encodeChars b = [w, x, y, z] := by
  rw [decodeLast?] at h
  obtain ⟨m, hm, h⟩ := Option.bind_eq_some_iff.1 h
  obtain ⟨n, hn, h⟩ := Option.bind_eq_some_iff.1 h
  obtain ⟨hmlt, hw⟩ := digit_of_value? hm
  obtain ⟨hnlt, hx⟩ := digit_of_value? hn
  split at h
  · next hz =>
    split at h
    · next hy =>
      split at h
      · next hbits =>
        obtain rfl := Option.some.inj h
        rw [hz, hy, ← hw, ← hx]
        exact encodeSingle_ofNat hmlt hnlt hbits
      · cases h
    · obtain ⟨k, hk, h⟩ := Option.bind_eq_some_iff.1 h
      obtain ⟨hklt, hy⟩ := digit_of_value? hk
      split at h
      · next hbits =>
        obtain rfl := Option.some.inj h
        rw [hz, ← hw, ← hx, ← hy]
        exact encodePair_ofNat hmlt hnlt hklt hbits
      · cases h
  · obtain ⟨k, hk, h⟩ := Option.bind_eq_some_iff.1 h
    obtain ⟨l, hl, h⟩ := Option.bind_eq_some_iff.1 h
    obtain ⟨hklt, hy⟩ := digit_of_value? hk
    obtain ⟨hllt, hz⟩ := digit_of_value? hl
    obtain rfl := Option.some.inj h
    rw [← hw, ← hx, ← hy, ← hz]
    exact encodeChars_decodeGroup hmlt hnlt hklt hllt []

theorem encodeChars_of_decodeChars? :
    (cs : List Char) → {b : Bytes} → decodeChars? cs = some b → encodeChars b = cs
  | [], _, h => by
    obtain rfl := Option.some.inj h
    rfl
  | [_], _, h => nomatch h
  | [_, _], _, h => nomatch h
  | [_, _, _], _, h => nomatch h
  | [w, x, y, z], b, h => by
    have hlast : decodeLast? w x y z = some b := by
      simpa [decodeChars?, decodeOnto?, List.reverseAux_eq] using h
    exact encodeChars_of_decodeLast? hlast
  | w :: x :: y :: z :: c :: rest, b, h => by
    simp only [decodeChars?, decodeOnto?] at h
    split at h
    · next m n k l hm hn hk hl =>
      obtain ⟨hmlt, hw⟩ := digit_of_value? hm
      obtain ⟨hnlt, hx⟩ := digit_of_value? hn
      obtain ⟨hklt, hy⟩ := digit_of_value? hk
      obtain ⟨hllt, hz⟩ := digit_of_value? hl
      rw [decodeOnto?_append] at h
      obtain ⟨more, hmore, rfl⟩ := Option.map_eq_some_iff.1 h
      have hgroup : ((decodeGroup m n k l).reverseAux []).reverse = decodeGroup m n k l := by
        rw [List.reverseAux_eq, List.append_nil, List.reverse_reverse]
      rw [hgroup, encodeChars_decodeGroup hmlt hnlt hklt hllt,
        encodeChars_of_decodeChars? (c :: rest) hmore, hw, hx, hy, hz]
      rfl
    · cases h

/-- **A text that is read is the one that is written.** -/
theorem encode_of_decode? {text : String} {b : Bytes} (h : decode? text = some b) :
    encode b = text := by
  rw [encode, encodeChars_of_decodeChars? text.toList h, String.ofList_toList]

/-! ### Which texts are read -/

/-- The digits of the standard alphabet, by their values from 0 to 63. -/
def alphabet : String :=
  "ABCDEFGHIJKLMNOPQRSTUVWXYZabcdefghijklmnopqrstuvwxyz0123456789+/"

/-- Characters in strict base64: digits of the standard alphabet, and behind them the padding that
makes up a multiple of four characters.  Each character of padding leaves two bits of the last digit
over, and these are zero. -/
structure Strict (digits : List Char) (padding : Nat) (cs : List Char) : Prop where
  chars : cs = digits ++ List.replicate padding '='
  inAlphabet : ∀ d ∈ digits, d ∈ alphabet.toList
  short : padding ≤ 2
  whole : (digits.length + padding) % 4 = 0
  zeroBits : ∀ d ∈ digits.getLast?, alphabet.toList.idxOf d % Nat.pow 4 padding = 0

/-- A text in strict base64. -/
def IsStrict (text : String) : Prop := ∃ digits padding, Strict digits padding text.toList

theorem map_digit : (List.range 64).map digit = alphabet.toList := by
  decide

theorem digit_mem_alphabet {n : Nat} (hn : n < 64) : digit n ∈ alphabet.toList := by
  rw [← map_digit]
  exact List.mem_map_of_mem (List.mem_range.2 hn)

theorem exists_digit_eq {c : Char} (hc : c ∈ alphabet.toList) : ∃ n < 64, digit n = c := by
  rw [← map_digit, List.mem_map] at hc
  simpa [List.mem_range] using hc

theorem idxOf_digit : ∀ n < 64, alphabet.toList.idxOf (digit n) = n := by
  rw [← map_digit]
  decide

/-- A full group in front of characters in strict base64. -/
theorem Strict.group {digits cs : List Char} {padding w x y z : Nat}
    (h : Strict digits padding cs) (hw : w < 64) (hx : x < 64) (hy : y < 64) (hz : z < 64) :
    Strict (digit w :: digit x :: digit y :: digit z :: digits) padding
      (digit w :: digit x :: digit y :: digit z :: cs) := by
  refine ⟨by rw [h.chars]; rfl, ?_, h.short, ?_, ?_⟩
  · intro d hd
    simp only [List.mem_cons] at hd
    rcases hd with rfl | rfl | rfl | rfl | hd
    · exact digit_mem_alphabet hw
    · exact digit_mem_alphabet hx
    · exact digit_mem_alphabet hy
    · exact digit_mem_alphabet hz
    · exact h.inAlphabet d hd
  · have hwhole := h.whole
    simp only [List.length_cons]
    omega
  · intro d hd
    cases digits with
    | nil =>
      have hpadding : padding = 0 := by
        have hwhole := h.whole
        have hshort := h.short
        simp only [List.length_nil] at hwhole
        omega
      rw [hpadding]
      exact Nat.mod_one _
    | cons d' digits => exact h.zeroBits d (by simpa using hd)

/-- What is written is in strict base64. -/
theorem strict_encodeChars : (b : Bytes) → ∃ digits padding, Strict digits padding (encodeChars b)
  | [] => ⟨[], 0, rfl, by simp, by omega, rfl, by simp⟩
  | [a] => by
    have ha := a.toNat_lt
    refine ⟨[digit (a.toNat / 4), digit (a.toNat % 4 * 16)], 2, rfl, ?_, by omega, by simp, ?_⟩
    · intro d hd
      simp only [List.mem_cons, List.not_mem_nil, or_false] at hd
      rcases hd with rfl | rfl
      · exact digit_mem_alphabet (by omega)
      · exact digit_mem_alphabet (by omega)
    · intro d hd
      obtain rfl : digit (a.toNat % 4 * 16) = d := by simpa using hd
      rw [idxOf_digit _ (by omega)]
      exact Nat.mul_mod_left _ 16
  | [a, b] => by
    have ha := a.toNat_lt
    have hb := b.toNat_lt
    refine ⟨[digit (a.toNat / 4), digit (a.toNat % 4 * 16 + b.toNat / 16),
      digit (b.toNat % 16 * 4)], 1, rfl, ?_, by omega, by simp, ?_⟩
    · intro d hd
      simp only [List.mem_cons, List.not_mem_nil, or_false] at hd
      rcases hd with rfl | rfl | rfl
      · exact digit_mem_alphabet (by omega)
      · exact digit_mem_alphabet (by omega)
      · exact digit_mem_alphabet (by omega)
    · intro d hd
      obtain rfl : digit (b.toNat % 16 * 4) = d := by simpa using hd
      rw [idxOf_digit _ (by omega)]
      exact Nat.mul_mod_left _ 4
  | a :: b :: c :: rest => by
    have ha := a.toNat_lt
    have hb := b.toNat_lt
    have hc := c.toNat_lt
    obtain ⟨digits, padding, h⟩ := strict_encodeChars rest
    rw [encodeChars_group]
    exact ⟨_, _, h.group (by omega) (by omega) (by omega) (by omega)⟩

/-- Characters in strict base64 are what is written for some bytes, by induction on the groups. -/
theorem exists_encodeChars_eq : (digits : List Char) → {padding : Nat} → {cs : List Char} →
    Strict digits padding cs → ∃ b, encodeChars b = cs
  | [], padding, cs, h => by
    have hwhole := h.whole
    have hshort := h.short
    obtain rfl : padding = 0 := by
      simp only [List.length_nil] at hwhole
      omega
    exact ⟨[], h.chars.symm⟩
  | [_], _, _, h => by
    have hwhole := h.whole
    have hshort := h.short
    simp only [List.length_cons, List.length_nil] at hwhole
    omega
  | [d, e], padding, cs, h => by
    have hwhole := h.whole
    have hshort := h.short
    obtain rfl : padding = 2 := by
      simp only [List.length_cons, List.length_nil] at hwhole
      omega
    obtain ⟨w, hw, rfl⟩ := exists_digit_eq (h.inAlphabet d (by simp))
    obtain ⟨x, hx, rfl⟩ := exists_digit_eq (h.inAlphabet e (by simp))
    have hbits := h.zeroBits (digit x) rfl
    rw [idxOf_digit x hx] at hbits
    exact ⟨[_], (encodeSingle_ofNat hw hx hbits).trans h.chars.symm⟩
  | [d, e, f], padding, cs, h => by
    have hwhole := h.whole
    have hshort := h.short
    obtain rfl : padding = 1 := by
      simp only [List.length_cons, List.length_nil] at hwhole
      omega
    obtain ⟨w, hw, rfl⟩ := exists_digit_eq (h.inAlphabet d (by simp))
    obtain ⟨x, hx, rfl⟩ := exists_digit_eq (h.inAlphabet e (by simp))
    obtain ⟨y, hy, rfl⟩ := exists_digit_eq (h.inAlphabet f (by simp))
    have hbits := h.zeroBits (digit y) rfl
    rw [idxOf_digit y hy] at hbits
    exact ⟨[_, _], (encodePair_ofNat hw hx hy hbits).trans h.chars.symm⟩
  | d :: e :: f :: g :: digits, padding, cs, h => by
    obtain ⟨w, hw, rfl⟩ := exists_digit_eq (h.inAlphabet d (by simp))
    obtain ⟨x, hx, rfl⟩ := exists_digit_eq (h.inAlphabet e (by simp))
    obtain ⟨y, hy, rfl⟩ := exists_digit_eq (h.inAlphabet f (by simp))
    obtain ⟨z, hz, rfl⟩ := exists_digit_eq (h.inAlphabet g (by simp))
    have hrest : Strict digits padding (digits ++ List.replicate padding '=') := by
      refine ⟨rfl, fun d hd => h.inAlphabet d (by simp [hd]), h.short, ?_, ?_⟩
      · have hwhole := h.whole
        simp only [List.length_cons] at hwhole
        omega
      · intro d hd
        cases digits with
        | nil => simp at hd
        | cons d' digits => exact h.zeroBits d (by simpa using hd)
    obtain ⟨b, hb⟩ := exists_encodeChars_eq digits hrest
    refine ⟨decodeGroup w x y z ++ b, ?_⟩
    rw [encodeChars_decodeGroup hw hx hy hz, hb, h.chars]
    rfl

/-- **A text is written for some bytes exactly if it is in strict base64.** -/
theorem isStrict_iff {text : String} : IsStrict text ↔ ∃ b, encode b = text := by
  constructor
  · rintro ⟨digits, padding, h⟩
    obtain ⟨b, hb⟩ := exists_encodeChars_eq digits h
    exact ⟨b, by rw [encode, hb, String.ofList_toList]⟩
  · rintro ⟨b, rfl⟩
    obtain ⟨digits, padding, h⟩ := strict_encodeChars b
    refine ⟨digits, padding, ?_⟩
    rw [encode, String.toList_ofList]
    exact h

/-- **A text is read as the bytes that it is written for**, and no other text is. -/
theorem decode?_eq_some_iff {text : String} {b : Bytes} :
    decode? text = some b ↔ encode b = text := by
  constructor
  · exact encode_of_decode?
  · rintro rfl
    exact decode?_encode b

end Strongroom.Base64
