/-!
# Tables

A table is a finite map that keeps its rows in the order of their keys. The order is part of the
type, so two tables with the same look-ups are equal (`Table.ext_get?`).
-/

namespace Strongroom

/-- Puts a row in front of the first row with a greater key, in place of a row with the same key. -/
def insertRow {κ α : Type} [LT κ] [DecidableLT κ] [DecidableEq κ] (key : κ) (a : α) :
    List (κ × α) → List (κ × α)
  | [] => [(key, a)]
  | row :: rows =>
    if key < row.1 then (key, a) :: row :: rows
    else if key = row.1 then (key, a) :: rows
    else row :: insertRow key a rows

/-- Rows in the strict order of their keys. -/
structure Table (κ α : Type) [LT κ] where
  /-- The rows, each with its key. -/
  rows : List (κ × α)
  ordered : rows.Pairwise fun x y => x.1 < y.1

namespace Table

variable {κ α : Type} [LT κ]

/-- The table without rows. -/
def empty : Table κ α := ⟨[], .nil⟩

instance : Inhabited (Table κ α) := ⟨empty⟩

/-- The number of rows. -/
def size (t : Table κ α) : Nat := t.rows.length

/-- The rows that pass a test. -/
def filter (t : Table κ α) (keep : κ → α → Bool) : Table κ α :=
  ⟨t.rows.filter fun row => keep row.1 row.2, t.ordered.filter _⟩

variable [DecidableEq κ]

/-- The row under a key. -/
def get? (t : Table κ α) (key : κ) : Option α :=
  (t.rows.find? fun row => row.1 = key).map (·.2)

/-- Whether there is a row under a key. -/
def contains (t : Table κ α) (key : κ) : Bool :=
  (t.get? key).isSome

/-- Removes the row under a key. -/
def erase (t : Table κ α) (key : κ) : Table κ α :=
  t.filter fun k _ => k ≠ key

/-- Removes the rows under some keys. -/
def eraseAll (t : Table κ α) (keys : List κ) : Table κ α :=
  t.filter fun k _ => !keys.contains k

theorem get?_eq_none_iff {t : Table κ α} {key : κ} :
    t.get? key = none ↔ ∀ row ∈ t.rows, row.1 ≠ key := by
  simp [get?, List.find?_eq_none]

theorem mem_insertRow [DecidableLT κ] {key : κ} {a : α} {rows : List (κ × α)} {row : κ × α}
    (h : row ∈ insertRow key a rows) : row = (key, a) ∨ row ∈ rows := by
  induction rows with
  | nil => simpa [insertRow] using h
  | cons first rows ih =>
    rw [insertRow] at h
    split at h
    · simpa using h
    · split at h
      · simp at h ⊢
        rcases h with h | h
        · exact .inl h
        · exact .inr (.inr h)
      · simp at h ⊢
        rcases h with h | h
        · exact .inr (.inl h)
        · rcases ih h with h | h
          · exact .inl h
          · exact .inr (.inr h)

variable [LE κ] [Std.IsLinearOrder κ] [Std.LawfulOrderLT κ] [DecidableLT κ]

theorem pairwise_insertRow (key : κ) (a : α) {rows : List (κ × α)}
    (h : rows.Pairwise fun x y => x.1 < y.1) :
    (insertRow key a rows).Pairwise fun x y => x.1 < y.1 := by
  induction rows with
  | nil => simp [insertRow]
  | cons first rows ih =>
    rw [List.pairwise_cons] at h
    rw [insertRow]
    split
    · next hlt =>
      refine .cons (fun row hrow => ?_) (.cons h.1 h.2)
      rcases List.mem_cons.1 hrow with rfl | hrow
      · exact hlt
      · exact Std.lt_trans hlt (h.1 _ hrow)
    · next hnot =>
      split
      · next heq =>
        subst heq
        exact .cons h.1 h.2
      · next hne =>
        refine .cons (fun row hrow => ?_) (ih h.2)
        rcases mem_insertRow hrow with rfl | hrow
        · rcases Std.lt_trichotomy key first.1 with hlt | heq | hgt
          · exact absurd hlt hnot
          · exact absurd heq hne
          · exact hgt
        · exact h.1 _ hrow

/-- Puts a row under a key, in place of the row that was there. -/
def insert (t : Table κ α) (key : κ) (a : α) : Table κ α :=
  ⟨insertRow key a t.rows, pairwise_insertRow key a t.ordered⟩

/-! ### Look-ups -/

omit [DecidableEq κ] [Std.IsLinearOrder κ] [DecidableLT κ] in
theorem eq_of_key_eq {rows : List (κ × α)} (h : rows.Pairwise fun x y => x.1 < y.1)
    {x y : κ × α} (hx : x ∈ rows) (hy : y ∈ rows) (heq : x.1 = y.1) : x = y := by
  induction rows with
  | nil => simp at hx
  | cons first rows ih =>
    rw [List.pairwise_cons] at h
    rcases List.mem_cons.1 hx with rfl | hx'
    · rcases List.mem_cons.1 hy with rfl | hy'
      · rfl
      · exact absurd (heq ▸ h.1 y hy') Std.lt_irrefl
    · rcases List.mem_cons.1 hy with rfl | hy'
      · exact absurd (heq ▸ h.1 x hx') Std.lt_irrefl
      · exact ih h.2 hx' hy'

omit [DecidableEq κ] [DecidableLT κ] in
/-- Rows in the strict order of their keys are determined by which rows they are. -/
theorem eq_of_mem_iff {rows rows' : List (κ × α)} (h : rows.Pairwise fun x y => x.1 < y.1)
    (h' : rows'.Pairwise fun x y => x.1 < y.1) (hmem : ∀ row, row ∈ rows ↔ row ∈ rows') :
    rows = rows' := by
  have hnodup : ∀ {l : List (κ × α)}, (l.Pairwise fun x y => x.1 < y.1) → l.Nodup := by
    intro l hl
    refine hl.imp fun hlt heq => ?_
    rw [heq] at hlt
    exact Std.lt_irrefl hlt
  refine List.Perm.eq_of_pairwise (fun x y _ _ hxy hyx => ?_) h h'
    ((List.perm_ext_iff_of_nodup (hnodup h) (hnodup h')).2 hmem)
  exact absurd (Std.lt_trans hxy hyx) Std.lt_irrefl

omit [Std.IsLinearOrder κ] [DecidableLT κ] in
theorem get?_eq_some_iff {t : Table κ α} {key : κ} {a : α} :
    t.get? key = some a ↔ (key, a) ∈ t.rows := by
  constructor
  · intro h
    obtain ⟨⟨k, b⟩, hfind, rfl⟩ := Option.map_eq_some_iff.1 h
    obtain rfl : k = key := by simpa using List.find?_some hfind
    exact List.mem_of_find?_eq_some hfind
  · intro h
    have hsome : (t.rows.find? fun row => row.1 = key).isSome := by
      rw [List.find?_isSome]
      exact ⟨(key, a), h, by simp⟩
    obtain ⟨row, hrow⟩ := Option.isSome_iff_exists.1 hsome
    have hkey : row.1 = key := by simpa using List.find?_some hrow
    obtain rfl := eq_of_key_eq t.ordered (List.mem_of_find?_eq_some hrow) h hkey
    rw [get?, hrow]
    rfl

theorem mem_insertRow_iff {key : κ} {a : α} {rows : List (κ × α)}
    (h : rows.Pairwise fun x y => x.1 < y.1) {row : κ × α} :
    row ∈ insertRow key a rows ↔ row = (key, a) ∨ row ∈ rows ∧ row.1 ≠ key := by
  have hsorted := pairwise_insertRow key a h
  have hmem : (key, a) ∈ insertRow key a rows := by
    clear hsorted h
    induction rows with
    | nil => simp [insertRow]
    | cons first rows ih =>
      rw [insertRow]
      repeat' split
      · simp
      · simp
      · exact List.mem_cons_of_mem _ ih
  constructor
  · intro hrow
    by_cases hk : row.1 = key
    · exact .inl (eq_of_key_eq hsorted hrow hmem hk)
    · rcases mem_insertRow hrow with rfl | hrow
      · exact absurd rfl hk
      · exact .inr ⟨hrow, hk⟩
  · rintro (rfl | ⟨hrow, hk⟩)
    · exact hmem
    · clear hsorted hmem
      induction rows with
      | nil => simp at hrow
      | cons first rows ih =>
        rw [insertRow]
        rw [List.pairwise_cons] at h
        rcases List.mem_cons.1 hrow with rfl | hrow
        · repeat' split
          · simp
          · next heq => exact absurd heq.symm hk
          · simp
        · repeat' split
          · simp [hrow]
          · simp [hrow]
          · exact List.mem_cons_of_mem _ (ih h.2 hrow)

theorem mem_rows_insert {t : Table κ α} {key : κ} {a : α} {row : κ × α} :
    row ∈ (t.insert key a).rows ↔ row = (key, a) ∨ row ∈ t.rows ∧ row.1 ≠ key :=
  mem_insertRow_iff t.ordered

theorem get?_insert (t : Table κ α) (key : κ) (a : α) (k : κ) :
    (t.insert key a).get? k = if k = key then some a else t.get? k := by
  ext b
  rw [get?_eq_some_iff, mem_rows_insert]
  split
  · next h =>
    subst h
    simp [eq_comm]
  · next h => simp [h, get?_eq_some_iff]

omit [Std.IsLinearOrder κ] [DecidableLT κ] in
theorem get?_filter (t : Table κ α) (keep : κ → α → Bool) (k : κ) :
    (t.filter keep).get? k = (t.get? k).filter (keep k) := by
  ext b
  rw [get?_eq_some_iff, Option.filter_eq_some_iff, get?_eq_some_iff]
  simp [filter]

omit [Std.IsLinearOrder κ] [DecidableLT κ] in
theorem get?_erase (t : Table κ α) (key k : κ) :
    (t.erase key).get? k = if k = key then none else t.get? k := by
  rw [erase, get?_filter]
  split
  · next h => cases t.get? k <;> simp [h]
  · next h => cases t.get? k <;> simp [h]

omit [DecidableLT κ] in
/-- A table is determined by its look-ups. -/
theorem ext_get? {t u : Table κ α} (h : ∀ k, t.get? k = u.get? k) : t = u := by
  have hmem : ∀ row, row ∈ t.rows ↔ row ∈ u.rows := by
    intro row
    rw [← get?_eq_some_iff (t := t), ← get?_eq_some_iff (t := u), h]
  have hrows : t.rows = u.rows := eq_of_mem_iff t.ordered u.ordered hmem
  cases t
  cases u
  cases hrows
  rfl

/-- A row under a new key comes between the rows with lower and those with greater keys. -/
theorem rows_insert_of_get?_eq_none {t : Table κ α} {key : κ} (h : t.get? key = none) (a : α) :
    ∃ before after, t.rows = before ++ after ∧ (t.insert key a).rows = before ++ (key, a) :: after ∧
      (∀ row ∈ before, row.1 < key) ∧ ∀ row ∈ after, key < row.1 := by
  have hsplit : ∀ rows : List (κ × α), (∀ row ∈ rows, row.1 ≠ key) →
      ∃ before after, rows = before ++ after ∧
        insertRow key a rows = before ++ (key, a) :: after := by
    intro rows hnew
    induction rows with
    | nil => exact ⟨[], [], rfl, rfl⟩
    | cons first rows ih =>
      rw [insertRow]
      by_cases hlt : key < first.1
      · exact ⟨[], first :: rows, rfl, by rw [if_pos hlt]; rfl⟩
      · obtain ⟨before, after, heq, hins⟩ := ih fun row hrow => hnew row (by simp [hrow])
        refine ⟨first :: before, after, by rw [heq]; rfl, ?_⟩
        rw [if_neg hlt, if_neg fun he => hnew first (by simp) he.symm, hins]
        rfl
  obtain ⟨before, after, heq, hins⟩ := hsplit t.rows (get?_eq_none_iff.1 h)
  have hordered := (t.insert key a).ordered
  have hrows : (t.insert key a).rows = before ++ (key, a) :: after := hins
  rw [hrows, List.pairwise_append, List.pairwise_cons] at hordered
  exact ⟨before, after, heq, hrows, fun row hrow => hordered.2.2 row hrow (key, a) (by simp),
    hordered.2.1.1⟩

end Table

end Strongroom
