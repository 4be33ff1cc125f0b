import Mathlib.Data.Finset.Sort
import Strongroom.Bytes

/-!
# Finite maps from names

The plain counterpart of a table: a function from names that has a value for finitely many of them.
It has no order and no bytes.  Where its entries have to be shown in a row, they come in the byte
order of their names (`NameMap.list`), and that row is the only one in strict order with the same
entries (`NameMap.eq_list`).
-/

namespace Strongroom

/-- The byte order of names. -/
def ByteLE (s t : String) : Prop := utf8 s ≤ utf8 t

instance : DecidableRel ByteLE := fun s t => inferInstanceAs (Decidable (utf8 s ≤ utf8 t))

instance : IsTrans String ByteLE := ⟨fun _ _ _ => Std.le_trans⟩

instance : Std.Antisymm ByteLE := ⟨fun _ _ h h' => utf8_inj.1 (Std.le_antisymm h h')⟩

instance : Std.Total ByteLE := ⟨fun _ _ => Std.le_total⟩

/-- A finite map from names. -/
structure NameMap (α : Type) where
  /-- The value under a name. -/
  find : String → Option α
  /-- The names that have a value. -/
  names : Finset String
  mem_names : ∀ n, n ∈ names ↔ (find n).isSome = true

namespace NameMap

variable {α : Type}

/-- The map without values. -/
def empty : NameMap α := ⟨fun _ => none, ∅, by simp⟩

/-- Whether a name has a value. -/
def has (m : NameMap α) (n : String) : Bool := (m.find n).isSome

/-- Gives a name a value. -/
def set (m : NameMap α) (n : String) (a : α) : NameMap α where
  find k := if k = n then some a else m.find k
  names := insert n m.names
  mem_names k := by
    rw [Finset.mem_insert, m.mem_names]
    split
    · next h => simp [h]
    · next h => simp [h]

/-- Takes the value of a name away. -/
def erase (m : NameMap α) (n : String) : NameMap α where
  find k := if k = n then none else m.find k
  names := m.names.erase n
  mem_names k := by
    rw [Finset.mem_erase, m.mem_names]
    split
    · next h => simp [h]
    · next h => simp [h]

/-- Gives a name a value, or takes its value away. -/
def put (m : NameMap α) (n : String) : Option α → NameMap α
  | some a => m.set n a
  | none => m.erase n

/-- Changes every value. -/
def map {β : Type} (f : α → β) (m : NameMap α) : NameMap β where
  find k := (m.find k).map f
  names := m.names
  mem_names k := by rw [m.mem_names, Option.isSome_map]

/-- The names with their values, in the byte order of the names. -/
def list (m : NameMap α) : List (String × α) :=
  (m.names.sort ByteLE).filterMap fun n => (m.find n).map (n, ·)

/-! ### Values -/

@[simp] theorem find_empty (n : String) : (empty : NameMap α).find n = none := rfl

theorem find_set (m : NameMap α) (n k : String) (a : α) :
    (m.set n a).find k = if k = n then some a else m.find k := rfl

@[simp] theorem find_set_self (m : NameMap α) (n : String) (a : α) :
    (m.set n a).find n = some a := if_pos rfl

theorem find_erase (m : NameMap α) (n k : String) :
    (m.erase n).find k = if k = n then none else m.find k := rfl

@[simp] theorem find_map {β : Type} (f : α → β) (m : NameMap α) (n : String) :
    (m.map f).find n = (m.find n).map f := rfl

theorem has_set (m : NameMap α) (n k : String) (a : α) :
    (m.set n a).has k = (decide (k = n) || m.has k) := by
  rw [has, find_set]
  by_cases hk : k = n
  · simp [hk]
  · simp [hk, has]

/-- A map is determined by its values. -/
theorem ext_find {m m' : NameMap α} (h : ∀ n, m.find n = m'.find n) : m = m' := by
  have hfind : m.find = m'.find := funext h
  have hnames : m.names = m'.names := by
    ext n
    rw [m.mem_names, m'.mem_names, hfind]
  cases m
  cases m'
  cases hfind
  cases hnames
  rfl

theorem set_set (m : NameMap α) (n : String) (a b : α) : (m.set n a).set n b = m.set n b := by
  refine ext_find fun k => ?_
  rw [find_set, find_set, find_set]
  by_cases hk : k = n
  · rw [if_pos hk, if_pos hk]
  · rw [if_neg hk, if_neg hk, if_neg hk]

/-- Giving many names their values one after another; a name that is given a value several times is
given the same one. -/
theorem find_foldl_set {γ : Type} {name : γ → String} {value : γ → α} {n : String} {g : Option α}
    {cs : List γ} (hg : ∀ c ∈ cs, name c = n → some (value c) = g) (m : NameMap α) :
    (cs.foldl (fun m c => m.set (name c) (value c)) m).find n =
      if cs.any fun c => name c = n then g else m.find n := by
  induction cs generalizing m with
  | nil => rfl
  | cons c cs ih =>
    rw [List.foldl_cons, ih fun d hd => hg d (by simp [hd]), find_set, List.any_cons]
    by_cases hc : name c = n
    · simp [hc, hg c (by simp) hc]
    · simp [hc, Ne.symm hc]

theorem find_put (m : NameMap α) (n k : String) (e : Option α) :
    (m.put n e).find k = if k = n then e else m.find k := by
  cases e with
  | none => exact m.find_erase n k
  | some a => exact m.find_set n k a

theorem find_put_self (m : NameMap α) (n : String) (e : Option α) : (m.put n e).find n = e := by
  rw [find_put, if_pos rfl]

theorem find_put_of_ne (m : NameMap α) {n k : String} (h : k ≠ n) (e : Option α) :
    (m.put n e).find k = m.find k := by
  rw [find_put, if_neg h]

theorem put_find (m : NameMap α) (n : String) : m.put n (m.find n) = m := by
  refine ext_find fun k => ?_
  rw [find_put]
  by_cases hk : k = n
  · rw [if_pos hk, hk]
  · rw [if_neg hk]

theorem put_comm (m : NameMap α) {n k : String} (h : n ≠ k) (e f : Option α) :
    (m.put n e).put k f = (m.put k f).put n e := by
  refine ext_find fun x => ?_
  rw [find_put, find_put, find_put, find_put]
  by_cases hn : x = n
  · rw [if_pos hn, if_pos hn, if_neg fun hk => h (hn.symm.trans hk)]
  · rw [if_neg hn, if_neg hn]

/-! ### The row of entries -/

theorem mem_list {m : NameMap α} {n : String} {a : α} : (n, a) ∈ m.list ↔ m.find n = some a := by
  simp only [list, List.mem_filterMap, Finset.mem_sort, m.mem_names]
  constructor
  · rintro ⟨k, -, hk⟩
    obtain ⟨b, hb, hkb⟩ := Option.map_eq_some_iff.1 hk
    obtain ⟨rfl, rfl⟩ := Prod.mk.inj hkb
    exact hb
  · intro h
    exact ⟨n, by simp [h], by simp [h]⟩

theorem pairwise_list (m : NameMap α) :
    m.list.Pairwise fun x y => utf8 x.1 < utf8 y.1 := by
  have hsorted : (m.names.sort ByteLE).Pairwise fun s t => utf8 s < utf8 t := by
    have hle := Finset.pairwise_sort m.names ByteLE
    have hne := Finset.sort_nodup m.names ByteLE
    refine (List.Pairwise.and hle hne).imp fun h => ?_
    exact Std.lt_of_le_of_ne h.1 fun he => h.2 (utf8_inj.1 he)
  refine hsorted.filterMap _ fun s t hst x hx y hy => ?_
  obtain ⟨a, -, rfl⟩ := Option.map_eq_some_iff.1 hx
  obtain ⟨b, -, rfl⟩ := Option.map_eq_some_iff.1 hy
  exact hst

/-- Entries in the strict byte order of their names are determined by which they are. -/
theorem eq_list {m : NameMap α} {xs : List (String × α)}
    (hsorted : xs.Pairwise fun x y => utf8 x.1 < utf8 y.1)
    (hmem : ∀ n a, (n, a) ∈ xs ↔ m.find n = some a) : xs = m.list := by
  have hnodup : ∀ {l : List (String × α)}, (l.Pairwise fun x y => utf8 x.1 < utf8 y.1) →
      l.Nodup := by
    intro l hl
    refine hl.imp fun hlt heq => ?_
    rw [heq] at hlt
    exact Std.lt_irrefl hlt
  refine List.Perm.eq_of_pairwise (fun x y _ _ hxy hyx => ?_) hsorted m.pairwise_list
    ((List.perm_ext_iff_of_nodup (hnodup hsorted) (hnodup m.pairwise_list)).2 fun x => ?_)
  · exact absurd (Std.lt_trans hxy hyx) Std.lt_irrefl
  · rw [hmem x.1 x.2, ← mem_list (m := m)]

/-- What only one name contributes to. -/
theorem flatMap_list {β : Type} {m : NameMap α} {n : String} {f : String × α → List β}
    (h : ∀ x, x.1 ≠ n → f x = []) :
    m.list.flatMap f = ((m.find n).map fun a => f (n, a)).getD [] := by
  have hnone : ∀ xs : List (String × α), (∀ x ∈ xs, x.1 ≠ n) → xs.flatMap f = [] :=
    fun xs hxs => List.flatMap_eq_nil_iff.2 fun x hx => h x (hxs x hx)
  cases hfind : m.find n with
  | none =>
    refine hnone _ fun x hx hn => ?_
    have hmem := mem_list.1 hx
    rw [hn, hfind] at hmem
    cases hmem
  | some a =>
    obtain ⟨before, after, hlist⟩ := List.append_of_mem (mem_list.2 hfind)
    have hsorted := m.pairwise_list
    rw [hlist, List.pairwise_append, List.pairwise_cons] at hsorted
    obtain ⟨-, ⟨hafter, -⟩, hbefore⟩ := hsorted
    rw [hlist, List.flatMap_append, List.flatMap_cons, hnone before, hnone after]
    · simp
    · rintro x hx rfl
      exact Std.lt_irrefl (hafter x hx)
    · rintro x hx rfl
      have hlt : utf8 x.1 < utf8 x.1 := hbefore x hx (x.1, a) (by simp)
      exact Std.lt_irrefl hlt

end NameMap

end Strongroom
