import Mathlib.Data.List.Forall2
import Strongroom.Proofs.Ledger.Plain

/-!
# Tables of named rows

Principals, groups and secrets each have a table of their own, with one row under each name.  Such a
table stands for a map if its keys are names and the row under a name, once decoded, shows the value
(`Keeps`).  What it shows is a parameter, for the row of a secret shows only its payload and
creator, while the grants are kept elsewhere.  Here are the consequences for each way in which the
ledger uses a table: one row, all rows, writing a row and removing one.
-/

namespace Strongroom

theorem Ledger.has_eq_false_iff {t : Table Bytes Bytes} {name : String} :
    Ledger.has t name = false ↔ t.get? (utf8 name) = none := by
  rw [Ledger.has, Table.contains, Option.isSome_eq_false_iff, Option.isNone_iff_eq_none]

/-- A table stands for a map: its keys are names, and the row under a name shows the value. -/
structure Keeps {α β : Type} (layout : Json.Layout β) (shows : String → β → α → Prop)
    (t : Table Bytes Bytes) (m : NameMap α) : Prop where
  named : ∀ row ∈ t.rows, ∃ n, row.1 = utf8 n
  absent : ∀ n, m.find n = none → t.get? (utf8 n) = none
  present : ∀ n a, m.find n = some a →
    ∃ row b, t.get? (utf8 n) = some row ∧ Ledger.decode layout row = .ok b ∧ shows n b a

namespace Keeps

variable {α β : Type} {layout : Json.Layout β} {shows : String → β → α → Prop}
variable {t : Table Bytes Bytes} {m : NameMap α}

theorem empty : Keeps layout shows .empty (.empty : NameMap α) := by
  refine ⟨fun row hrow => ?_, fun n _ => rfl, fun n a ha => ?_⟩
  · simp [Table.empty] at hrow
  · simp at ha

theorem has_eq (h : Keeps layout shows t m) (n : String) : Ledger.has t n = m.has n := by
  rw [Ledger.has, Table.contains, NameMap.has]
  cases hfind : m.find n with
  | none =>
    rw [h.absent n hfind]
    rfl
  | some a =>
    obtain ⟨row, b, hrow, -⟩ := h.present n a hfind
    rw [hrow]
    rfl

theorem row?_eq_none (h : Keeps layout shows t m) {n : String} (hn : m.find n = none) :
    Ledger.row? layout t n = .ok none := by
  rw [Ledger.row?, h.absent n hn]

theorem row?_eq_some (h : Keeps layout shows t m) {n : String} {a : α} (hn : m.find n = some a) :
    ∃ b, Ledger.row? layout t n = .ok (some b) ∧ shows n b a := by
  obtain ⟨row, b, hrow, hb, hshows⟩ := h.present n a hn
  refine ⟨b, ?_, hshows⟩
  rw [Ledger.row?, hrow]
  simp only [hb]
  rfl

/-- A table in which one row has changed. -/
theorem set (h : Keeps layout shows t m) {t' : Table Bytes Bytes} {n : String} {row : Bytes}
    {b : β} {a : α} (hnamed : ∀ r ∈ t'.rows, ∃ k, r.1 = utf8 k)
    (hrow : t'.get? (utf8 n) = some row)
    (hother : ∀ k, k ≠ n → t'.get? (utf8 k) = t.get? (utf8 k))
    (hb : Ledger.decode layout row = .ok b) (hshows : shows n b a) :
    Keeps layout shows t' (m.set n a) := by
  refine ⟨hnamed, fun k hk => ?_, fun k c hc => ?_⟩
  · rw [NameMap.find_set] at hk
    by_cases hkn : k = n
    · rw [if_pos hkn] at hk
      cases hk
    · rw [if_neg hkn] at hk
      rw [hother k hkn]
      exact h.absent k hk
  · rw [NameMap.find_set] at hc
    by_cases hkn : k = n
    · rw [if_pos hkn] at hc
      obtain rfl := Option.some.inj hc
      subst hkn
      exact ⟨row, b, hrow, hb, hshows⟩
    · rw [if_neg hkn] at hc
      rw [hother k hkn]
      exact h.present k c hc

theorem insert (h : Keeps layout shows t m) {n : String} {row : Bytes} {b : β} {a : α}
    (hb : Ledger.decode layout row = .ok b) (hshows : shows n b a) :
    Keeps layout shows (t.insert (utf8 n) row) (m.set n a) := by
  refine h.set (fun r hr => ?_) ?_ (fun k hk => ?_) hb hshows
  · rcases Table.mem_rows_insert.1 hr with rfl | ⟨hr, -⟩
    · exact ⟨n, rfl⟩
    · exact h.named r hr
  · rw [Table.get?_insert, if_pos rfl]
  · rw [Table.get?_insert, if_neg fun he => hk (utf8_inj.1 he)]

theorem erase (h : Keeps layout shows t m) (n : String) :
    Keeps layout shows (t.erase (utf8 n)) (m.erase n) := by
  refine ⟨fun r hr => h.named r (List.mem_of_mem_filter hr), fun k hk => ?_, fun k a ha => ?_⟩
  · rw [Table.get?_erase]
    by_cases hkn : k = n
    · rw [if_pos (utf8_inj.2 hkn)]
    · rw [if_neg fun he => hkn (utf8_inj.1 he)]
      rw [NameMap.find_erase, if_neg hkn] at hk
      exact h.absent k hk
  · rw [NameMap.find_erase] at ha
    by_cases hkn : k = n
    · rw [if_pos hkn] at ha
      exact absurd ha (by simp)
    · rw [if_neg hkn] at ha
      rw [Table.get?_erase, if_neg fun he => hkn (utf8_inj.1 he)]
      exact h.present k a ha

/-- Rows that show what has been changed need not be written again. -/
theorem map {f : α → α} (h : Keeps layout shows t m)
    (hf : ∀ n b a, shows n b a → shows n b (f a)) : Keeps layout shows t (m.map f) := by
  refine ⟨h.named, fun n hn => h.absent n (Option.map_eq_none_iff.1 hn), fun n c hc => ?_⟩
  obtain ⟨a, ha, rfl⟩ := Option.map_eq_some_iff.1 hc
  obtain ⟨row, b, hrow, hb, hshows⟩ := h.present n a ha
  exact ⟨row, b, hrow, hb, hf n b a hshows⟩

theorem congr (h : Keeps layout shows t m) {m' : NameMap α} (heq : ∀ n, m'.find n = m.find n) :
    Keeps layout shows t m' :=
  ⟨h.named, fun n hn => h.absent n (heq n ▸ hn), fun n a ha => h.present n a (heq n ▸ ha)⟩

/-- A value that the row shows as well can take the place of another. -/
theorem update (h : Keeps layout shows t m) {n : String} {a a' : α} (hn : m.find n = some a)
    (hshows : ∀ b, shows n b a → shows n b a') : Keeps layout shows t (m.set n a') := by
  obtain ⟨row, b, hrow, hb, hold⟩ := h.present n a hn
  exact h.set h.named hrow (fun _ _ => rfl) hb (hshows b hold)

theorem addRow (h : Keeps layout shows t m) {n : String} {row : Bytes} {b : β} {a : α}
    (hb : Ledger.decode layout row = .ok b) (hshows : shows n b a) :
    Keeps layout shows (Ledger.addRow t n row) (PlainLedger.keepOrSet m n a) := by
  rw [Ledger.addRow, PlainLedger.keepOrSet, h.has_eq]
  by_cases hn : m.has n = true
  · rw [if_pos hn, if_pos hn]
    exact h
  · rw [if_neg hn, if_neg hn]
    exact h.insert hb hshows

/-- Every row is the row of a name and shows its value. -/
theorem exists_of_mem (h : Keeps layout shows t m) {row : Bytes × Bytes} (hrow : row ∈ t.rows) :
    ∃ x : String × α, row.1 = utf8 x.1 ∧ m.find x.1 = some x.2 ∧
      ∃ b, Ledger.decode layout row.2 = .ok b ∧ shows x.1 b x.2 := by
  obtain ⟨n, hn⟩ := h.named row hrow
  have hget : t.get? (utf8 n) = some row.2 := Table.get?_eq_some_iff.2 (hn ▸ hrow)
  cases hfind : m.find n with
  | none =>
    rw [h.absent n hfind] at hget
    exact absurd hget (by simp)
  | some a =>
    obtain ⟨row', b, hrow', hb, hshows⟩ := h.present n a hfind
    rw [hget] at hrow'
    obtain rfl := Option.some.inj hrow'
    exact ⟨(n, a), hn, hfind, b, hb, hshows⟩

/-- The rows of a table, in the order of their keys, are those of the map in the byte order of its
names. -/
theorem rows_list (h : Keeps layout shows t m) :
    List.Forall₂ (fun row x => row.1 = utf8 x.1 ∧
      ∃ b, Ledger.decode layout row.2 = .ok b ∧ shows x.1 b x.2) t.rows m.list := by
  have hchoice : ∀ row : {row // row ∈ t.rows}, ∃ x : String × α, row.1.1 = utf8 x.1 ∧
      m.find x.1 = some x.2 ∧ ∃ b, Ledger.decode layout row.1.2 = .ok b ∧ shows x.1 b x.2 :=
    fun row => h.exists_of_mem row.2
  choose f hkey hfind hshows using hchoice
  have hlist : t.rows.attach.map f = m.list := by
    refine NameMap.eq_list ?_ fun n a => ?_
    · have hordered : t.rows.attach.Pairwise fun x y => x.1.1 < y.1.1 := by
        have := t.ordered
        rwa [← List.attach_map_subtype_val t.rows, List.pairwise_map] at this
      rw [List.pairwise_map]
      refine hordered.imp fun {x y} hlt => ?_
      rwa [← hkey x, ← hkey y]
    · rw [List.mem_map]
      constructor
      · rintro ⟨row, -, hx⟩
        have := hfind row
        rwa [hx] at this
      · intro ha
        obtain ⟨row, b, hrow, -⟩ := h.present n a ha
        let x : {row // row ∈ t.rows} := ⟨_, Table.get?_eq_some_iff.1 hrow⟩
        have hn : n = (f x).1 := utf8_inj.1 (hkey x)
        have hfa := hfind x
        rw [← hn, ha] at hfa
        exact ⟨x, List.mem_attach _ _, Prod.ext hn.symm (Option.some.inj hfa).symm⟩
  have hall : List.Forall₂ (fun row x => row.1 = utf8 x.1 ∧
      ∃ b, Ledger.decode layout row.2 = .ok b ∧ shows x.1 b x.2)
      (t.rows.attach.map (·.1)) (t.rows.attach.map f) := by
    rw [List.forall₂_map_left_iff, List.forall₂_map_right_iff, List.forall₂_same]
    exact fun row _ => ⟨hkey row, hshows row⟩
  rwa [List.attach_map_subtype_val, hlist] at hall

/-- Reading all rows of a table gives what shows the values of the map, in the byte order of the
names. -/
theorem all_eq (h : Keeps layout shows t m) :
    ∃ bs, Ledger.all layout t = .ok bs ∧ List.Forall₂ (fun b x => shows x.1 b x.2) bs m.list := by
  have hrows := h.rows_list
  rw [Ledger.all]
  generalize t.rows = rows, m.list = xs at hrows
  induction hrows with
  | nil => exact ⟨[], rfl, .nil⟩
  | @cons row x rows xs hx _ ih =>
    obtain ⟨-, b, hb, hshows⟩ := hx
    obtain ⟨bs, hbs, hall⟩ := ih
    refine ⟨b :: bs, ?_, .cons hshows hall⟩
    rw [List.mapM_cons, hbs]
    show (Ledger.decode layout row.2 >>= _) = _
    rw [hb]
    rfl

/-- A row that shows itself is given back as the value. -/
theorem row_eq {shows : String → α → α → Prop} {layout : Json.Layout α}
    (h : Keeps layout shows t m) (heq : ∀ n b a, shows n b a → b = a) (n : String)
    (subject : Subject) : Ledger.row layout t n subject = m.get n subject := by
  rw [Ledger.row, NameMap.get]
  cases hfind : m.find n with
  | none =>
    rw [h.row?_eq_none hfind]
    rfl
  | some a =>
    obtain ⟨b, hb, hshows⟩ := h.row?_eq_some hfind
    rw [hb, heq n b a hshows]
    rfl

/-- Rows that show themselves are given back as the values, in the byte order of the names. -/
theorem all_eq_list {shows : String → α → α → Prop} {layout : Json.Layout α}
    (h : Keeps layout shows t m) (heq : ∀ n b a, shows n b a → b = a) :
    Ledger.all layout t = .ok (m.list.map (·.2)) := by
  obtain ⟨bs, hbs, hall⟩ := h.all_eq
  have hvalues : bs = m.list.map (·.2) := by
    rw [← List.forall₂_eq_eq_eq, List.forall₂_map_right_iff]
    exact hall.imp fun b x hx => heq x.1 b x.2 hx
  rw [hbs, hvalues]

end Keeps

end Strongroom
