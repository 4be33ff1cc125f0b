import Mathlib.Data.List.Basic

/-!
# What stands in a history

A history is a list of events, the latest last.  Much of what a state says about its past has one
form: something has happened, and nothing behind it has undone it (`Standing`).  When an event is
added, this is decided by that event and by what stood before,

    stands after  ↔  the event does it ∨ (it stood before ∧ the event does not undo it),

so a fact about the state that changes in the same way is the same fact (`standing_concat`).
-/

namespace Strongroom

variable {α : Type} {starts ends : α → Prop} {xs : List α} {x : α}

/-- Some event of a history starts something, and no event behind it ends it. -/
def Standing (starts ends : α → Prop) (xs : List α) : Prop :=
  ∃ before x after, xs = before ++ x :: after ∧ starts x ∧ ∀ y ∈ after, ¬ ends y

theorem not_standing_nil : ¬ Standing starts ends [] := by
  rintro ⟨before, x, after, hxs, -⟩
  simp at hxs

theorem standing_concat :
    Standing starts ends (xs ++ [x]) ↔ starts x ∨ Standing starts ends xs ∧ ¬ ends x := by
  constructor
  · rintro ⟨before, y, after, hxs, hstarts, hends⟩
    rcases List.eq_nil_or_concat after with rfl | ⟨after, z, rfl⟩
    · obtain ⟨-, hxy⟩ := List.append_inj' hxs rfl
      obtain rfl : x = y := by simpa using hxy
      exact .inl hstarts
    · rw [List.concat_eq_append] at hxs hends
      rw [← List.cons_append, ← List.append_assoc] at hxs
      obtain ⟨rfl, hxz⟩ := List.append_inj' hxs rfl
      obtain rfl : x = z := by simpa using hxz
      exact .inr ⟨⟨before, y, after, rfl, hstarts, fun w hw => hends w (by simp [hw])⟩,
        hends x (by simp)⟩
  · rintro (hstarts | ⟨⟨before, y, after, rfl, hstarts, hends⟩, hx⟩)
    · exact ⟨xs, x, [], rfl, hstarts, by simp⟩
    · refine ⟨before, y, after ++ [x], by simp, hstarts, fun w hw => ?_⟩
      rcases List.mem_append.1 hw with hw | hw
      · exact hends w hw
      · obtain rfl : w = x := by simpa using hw
        exact hx

theorem exists_mem_of_standing (h : Standing starts ends xs) : ∃ x ∈ xs, starts x := by
  obtain ⟨before, x, after, rfl, hstarts, -⟩ := h
  exact ⟨x, by simp, hstarts⟩

end Strongroom
