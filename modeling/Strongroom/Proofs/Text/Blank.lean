import Mathlib.Data.List.TakeWhile
import Strongroom.Text.Blank

/-!
# Trimming

Trimming takes the longest runs of blanks off both ends of a text.  So it makes no difference how
many blanks stand there (`trimChars_pad`), and what is left is nothing exactly if there was nothing
but blanks (`trimChars_eq_nil_iff`).
-/

namespace Strongroom.Text

/-- A text of nothing but blanks. -/
def IsBlankText (s : String) : Prop := ∀ c ∈ s.toList, isBlank c = true

theorem trimStart_append {before : List Char} (h : ∀ c ∈ before, isBlank c = true)
    (cs : List Char) : trimStart (before ++ cs) = trimStart cs :=
  List.dropWhile_append_of_pos h

theorem trimStart_eq_nil_iff {cs : List Char} : trimStart cs = [] ↔ ∀ c ∈ cs, isBlank c = true :=
  List.dropWhile_eq_nil_iff

theorem trimChars_eq_nil_iff {cs : List Char} : trimChars cs = [] ↔ ∀ c ∈ cs, isBlank c = true := by
  rw [trimChars, List.reverse_eq_nil_iff, trimStart_eq_nil_iff]
  constructor
  · intro h
    -- the first character that is left is no blank, so none is left
    cases hleft : trimStart cs with
    | nil => exact trimStart_eq_nil_iff.1 hleft
    | cons c cs' =>
      have hblank : isBlank c = true := h c (by simp [hleft])
      have hstop : isBlank c = false := by
        have hhead := List.head?_dropWhile_not isBlank cs
        rw [show cs.dropWhile isBlank = c :: cs' from hleft] at hhead
        simpa using hhead
      rw [hstop] at hblank
      cases hblank
  · intro h
    rw [trimStart_eq_nil_iff.2 h]
    simp

/-- **Blanks around a text do not show when it is trimmed.** -/
theorem trimChars_pad {before after : List Char} (hbefore : ∀ c ∈ before, isBlank c = true)
    (hafter : ∀ c ∈ after, isBlank c = true) (cs : List Char) :
    trimChars (before ++ cs ++ after) = trimChars cs := by
  rw [List.append_assoc, trimChars, trimStart_append hbefore]
  by_cases hblank : ∀ c ∈ cs, isBlank c = true
  · have hnil : trimStart (cs ++ after) = [] := by
      rw [trimStart_append hblank, trimStart_eq_nil_iff]
      exact hafter
    rw [hnil, trimChars_eq_nil_iff.2 hblank]
    rfl
  · have hmore : trimStart (cs ++ after) = trimStart cs ++ after := by
      have hne : (cs.dropWhile isBlank).isEmpty = false := by
        rw [List.isEmpty_eq_false_iff]
        exact fun hnil => hblank (trimStart_eq_nil_iff.1 hnil)
      rw [trimStart, List.dropWhile_append, hne]
      rfl
    have hreverse : ∀ c ∈ after.reverse, isBlank c = true := by
      intro c hc
      exact hafter c (List.mem_reverse.1 hc)
    rw [hmore, List.reverse_append, trimStart_append hreverse, trimChars]

/-- What is trimmed off are blanks. -/
theorem exists_eq_trimChars (cs : List Char) : ∃ before after,
    cs = before ++ trimChars cs ++ after ∧ ∀ c ∈ before ++ after, isBlank c = true := by
  let before := cs.takeWhile isBlank
  let after := ((trimStart cs).reverse.takeWhile isBlank).reverse
  have hfront : before ++ trimStart cs = cs := List.takeWhile_append_dropWhile
  have hback : trimChars cs ++ after = trimStart cs := by
    unfold trimChars
    rw [← List.reverse_append]
    apply List.reverse_eq_iff.2
    exact List.takeWhile_append_dropWhile
  refine ⟨before, after, ?_, ?_⟩
  · rw [List.append_assoc, hback, hfront]
  · intro c hc
    rcases List.mem_append.1 hc with hc | hc
    · exact List.mem_takeWhile_imp hc
    · exact List.mem_takeWhile_imp (List.mem_reverse.1 hc)

/-- Where there are no blanks, nothing is trimmed off. -/
theorem trimChars_eq_self {cs : List Char} (h : ∀ c ∈ cs, isBlank c = false) :
    trimChars cs = cs := by
  have hstays : ∀ cs : List Char, (∀ c ∈ cs, isBlank c = false) → trimStart cs = cs := by
    intro cs h
    cases cs with
    | nil => rfl
    | cons c cs => exact List.dropWhile_cons_of_neg (by simp [h c])
  unfold trimChars
  rw [hstays cs h, hstays cs.reverse fun c hc => h c (List.mem_reverse.1 hc), List.reverse_reverse]

theorem trim_pad {before after : String} (hbefore : IsBlankText before)
    (hafter : IsBlankText after) (s : String) : trim (before ++ s ++ after) = trim s := by
  rw [trim, String.toList_append, String.toList_append, trimChars_pad hbefore hafter, trim]

theorem trim_isEmpty_iff {s : String} : (trim s).isEmpty = true ↔ IsBlankText s := by
  rw [String.isEmpty_iff, trim, ← String.toList_inj, String.toList_ofList]
  exact trimChars_eq_nil_iff

end Strongroom.Text
