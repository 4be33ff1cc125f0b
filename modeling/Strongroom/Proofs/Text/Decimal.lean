import Strongroom.Text.Decimal

/-!
# Which texts are read as numbers

A text spells a number by its decimal digits, of which there is one at least and may be any number
of leading zeros, behind a plus sign or not (`Spells`).  It is read exactly if the number that it
spells, whatever its length, is below the bound, and then as this number
(`ofTrimmed?_eq_some_iff`).
-/

namespace Strongroom.Decimal

/-- Characters that spell a number. -/
def Spells (cs : List Char) (n : Nat) : Prop :=
  ∃ ds, (cs = ds ∨ cs = '+' :: ds) ∧ ds ≠ [] ∧ (∀ d ∈ ds, isDigit d = true) ∧ value ds = n

theorem ofDigits?_eq_some_iff {bound n : Nat} {ds : List Char} : ofDigits? bound ds = some n ↔
    (ds ≠ [] ∧ (∀ d ∈ ds, isDigit d = true) ∧ value ds = n) ∧ n < bound := by
  rw [ofDigits?]
  split
  · next h =>
    simp only [Bool.or_eq_true, List.isEmpty_iff, Bool.not_eq_true', List.all_eq_false] at h
    simp only [reduceCtorEq, false_iff, not_and]
    rintro ⟨hne, hdigits, -⟩
    rcases h with rfl | ⟨d, hd, hnot⟩
    · exact absurd rfl hne
    · exact absurd (hdigits d hd) hnot
  · next h =>
    simp only [Bool.or_eq_true, List.isEmpty_iff, Bool.not_eq_true', not_or,
      Bool.not_eq_false, List.all_eq_true] at h
    split
    · next hlt =>
      rw [Option.some_inj]
      constructor
      · rintro rfl
        exact ⟨⟨h.1, h.2, rfl⟩, hlt⟩
      · exact fun hn => hn.1.2.2
    · next hlt =>
      simp only [reduceCtorEq, false_iff, not_and]
      rintro ⟨-, -, rfl⟩
      exact hlt

theorem ofChars?_eq_some_iff {bound n : Nat} {cs : List Char} :
    ofChars? bound cs = some n ↔ Spells cs n ∧ n < bound := by
  rw [ofChars?.eq_def]
  split
  · next ds =>
    rw [ofDigits?_eq_some_iff]
    refine and_congr_left fun _ => ⟨fun h => ⟨ds, .inr rfl, h⟩, ?_⟩
    rintro ⟨ds', hsign | hsign, hne, hdigits, hvalue⟩
    · -- a plus sign is no digit
      subst hsign
      exact absurd (hdigits '+' (by simp)) (by decide)
    · obtain rfl : ds = ds' := by simpa using hsign
      exact ⟨hne, hdigits, hvalue⟩
  · next hsign =>
    rw [ofDigits?_eq_some_iff]
    refine and_congr_left fun _ => ⟨fun h => ⟨cs, .inl rfl, h⟩, ?_⟩
    rintro ⟨ds', rfl | hplus, h⟩
    · exact h
    · exact absurd hplus (hsign ds')

/-- **A text is read as the number that it spells, if that is below the bound.** -/
theorem ofTrimmed?_eq_some_iff {bound n : Nat} {s : String} : ofTrimmed? bound s = some n ↔
    Spells (Text.trimChars s.toList) n ∧ n < bound :=
  ofChars?_eq_some_iff

end Strongroom.Decimal
