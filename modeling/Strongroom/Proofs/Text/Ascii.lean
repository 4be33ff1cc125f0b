import Strongroom.Bytes

/-!
# ASCII characters in UTF-8

A character below 128 is the one byte of its number, and the bytes of every other character are all
128 or above.  So no byte of a longer character looks like an ASCII character
(`of_mem_utf8EncodeChar`), and what holds of the ASCII bytes of a text can be seen on its
characters.
-/

namespace Strongroom

/-- An ASCII character is one byte. -/
theorem utf8EncodeChar_of_lt {c : Char} (h : c.toNat < 0x80) :
    String.utf8EncodeChar c = [UInt8.ofNat c.toNat] := by
  rw [String.utf8EncodeChar, Char.toNat]
  exact if_pos (Nat.le_of_lt_succ h)

theorem exists_mem_utf8EncodeChar (c : Char) : ∃ b, b ∈ String.utf8EncodeChar c := by
  apply List.exists_mem_of_length_pos
  rw [String.length_utf8EncodeChar]
  exact c.utf8Size_pos

/-- **A byte of a character is the character itself, or neither of the two is ASCII.** -/
theorem of_mem_utf8EncodeChar {c : Char} {b : UInt8} (h : b ∈ String.utf8EncodeChar c) :
    c.toNat < 0x80 ∧ b.toNat = c.toNat ∨ 0x80 ≤ c.toNat ∧ 0x80 ≤ b.toNat := by
  have hc : c.val.toNat = c.toNat := rfl
  simp only [String.utf8EncodeChar, hc] at h
  -- the four lengths of an encoding; every byte is given by its number
  repeat' split at h
  all_goals
    simp only [List.mem_cons, List.not_mem_nil, or_false, ← UInt8.toNat_inj,
      UInt8.toNat_ofNat'] at h
    omega

/-- The bytes of a text are those of its characters. -/
theorem mem_utf8_iff {s : String} {b : UInt8} :
    b ∈ utf8 s ↔ ∃ c ∈ s.toList, b ∈ String.utf8EncodeChar c := by
  rw [← String.ofList_toList (s := s), utf8_ofList, List.mem_flatMap, String.toList_ofList]

end Strongroom
