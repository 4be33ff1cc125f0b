import Strongroom.Proofs.Ledger.Effects

/-!
# Tables whose rows can all be read

Rows are kept as bytes, so nothing but the operations themselves sees to it that a row can be read
and that it stands under a key that goes with it.  A table in which this is so for every row is
sound (`SoundRows`).  Here is what keeps a table sound, and what reading a sound table gives: the
scan for wraps never fails (`exists_scanWraps`), finds all wraps that it is for
(`mem_scanWraps_iff`), and so the wraps that are removed are gone (`of_removeWraps_of_sound`).
-/

namespace Strongroom

/-! ### Reading every member of a list -/

section

variable {ε α β : Type} {f : α → Except ε β} {xs : List α}

theorem exists_mapM_eq_ok (h : ∀ x ∈ xs, ∃ y, f x = .ok y) : ∃ ys, xs.mapM f = .ok ys := by
  induction xs with
  | nil => exact ⟨[], rfl⟩
  | cons x xs ih =>
    obtain ⟨y, hy⟩ := h x (by simp)
    obtain ⟨ys, hys⟩ := ih fun z hz => h z (by simp [hz])
    refine ⟨y :: ys, ?_⟩
    rw [List.mapM_cons, hy, hys]
    rfl

/-- The results of reading every member are what the members are read as. -/
theorem mem_of_mapM_eq_ok {ys : List β} (h : xs.mapM f = .ok ys) {y : β} :
    y ∈ ys ↔ ∃ x ∈ xs, f x = .ok y := by
  induction xs generalizing ys with
  | nil =>
    cases h
    simp
  | cons x xs ih =>
    rw [List.mapM_cons] at h
    obtain ⟨z, hz, h⟩ := of_bind_eq_ok h
    obtain ⟨zs, hzs, h⟩ := of_bind_eq_ok h
    cases h
    simp [ih hzs, hz, eq_comm]

/-- What every member keeps when it is read, the list keeps. -/
theorem map_of_mapM_eq_ok {γ : Type} {ys : List β} {before : α → γ} {after : β → γ}
    (h : xs.mapM f = .ok ys) (hkeeps : ∀ x ∈ xs, ∀ y, f x = .ok y → after y = before x) :
    ys.map after = xs.map before := by
  induction xs generalizing ys with
  | nil =>
    cases h
    rfl
  | cons x xs ih =>
    rw [List.mapM_cons] at h
    obtain ⟨z, hz, h⟩ := of_bind_eq_ok h
    obtain ⟨zs, hzs, h⟩ := of_bind_eq_ok h
    cases h
    rw [List.map_cons, List.map_cons, hkeeps x (by simp) z hz,
      ih hzs fun y hy => hkeeps y (by simp [hy])]

end

/-! ### Sound tables -/

/-- A wrap stands among those of its secret. -/
def Wrap.standsAt (w : Wrap) (key : Bytes) : Prop :=
  Ledger.wrapsStart w.secret ≤ key ∧ key < Ledger.wrapsEnd w.secret

theorem Wrap.standsAt_wrapKey (w : Wrap) (n : UInt64) :
    w.standsAt (Ledger.wrapKey w.secret n) :=
  ⟨Ledger.wrapsStart_le_wrapKey _ _, Ledger.wrapKey_lt_wrapsEnd _ _⟩

namespace Ledger

/-- Every row of a table can be read, and what it says goes with its key. -/
def SoundRows {α : Type} (layout : Json.Layout α) (fits : Bytes → α → Prop)
    (t : Table Bytes Bytes) : Prop :=
  ∀ row ∈ t.rows, ∃ a, decode layout row.2 = .ok a ∧ fits row.1 a

namespace SoundRows

variable {α : Type} {layout : Json.Layout α} {fits fits' : Bytes → α → Prop}
variable {t t' : Table Bytes Bytes}

theorem empty : SoundRows layout fits .empty := by
  intro row hrow
  cases hrow

/-- A sound table of which some rows are left, all with a property of their own. -/
theorem of_subset (h : SoundRows layout fits t) (hsub : t'.rows ⊆ t.rows)
    (hfits : ∀ row ∈ t'.rows, ∀ a, decode layout row.2 = .ok a → fits row.1 a → fits' row.1 a) :
    SoundRows layout fits' t' := by
  intro row hrow
  obtain ⟨a, ha, hfit⟩ := h row (hsub hrow)
  exact ⟨a, ha, hfits row hrow a ha hfit⟩

theorem imp (h : SoundRows layout fits t) (hfits : ∀ key a, fits key a → fits' key a) :
    SoundRows layout fits' t :=
  h.of_subset (List.Subset.refl _) fun _ _ _ _ => hfits _ _

theorem erase (h : SoundRows layout fits t) (key : Bytes) :
    SoundRows layout fits (t.erase key) :=
  h.of_subset (List.filter_subset_self _) fun _ _ _ _ hfit => hfit

theorem insert (h : SoundRows layout fits t) {key row : Bytes} {a : α}
    (ha : decode layout row = .ok a) (hfit : fits key a) :
    SoundRows layout fits (t.insert key row) := by
  intro x hx
  rcases Table.mem_rows_insert.1 hx with rfl | ⟨hx, -⟩
  · exact ⟨a, ha, hfit⟩
  · exact h x hx

theorem addRow (h : SoundRows layout fits t) {name : String} {row : Bytes} {a : α}
    (ha : decode layout row = .ok a) (hfit : fits (utf8 name) a) :
    SoundRows layout fits (addRow t name row) := by
  rw [Ledger.addRow]
  split
  · exact h
  · exact h.insert ha hfit

/-- A row of a sound table that is looked up by name. -/
theorem of_row?_eq_ok (h : SoundRows layout fits t) {name : String} {a : α}
    (hrow : row? layout t name = .ok (some a)) : fits (utf8 name) a := by
  rw [row?] at hrow
  split at hrow
  · cases hrow
  · next bytes hget =>
    obtain ⟨b, hb, hfit⟩ := h _ (Table.get?_eq_some_iff.1 hget)
    rw [hb] at hrow
    cases hrow
    exact hfit

theorem of_row_eq_ok (h : SoundRows layout fits t) {name : String} {subject : Subject} {a : α}
    (hrow : row layout t name subject = .ok a) : fits (utf8 name) a := by
  rw [row] at hrow
  obtain ⟨found, hfound, hrow⟩ := of_bind_eq_ok hrow
  cases found with
  | none => cases hrow
  | some b =>
    cases hrow
    exact h.of_row?_eq_ok hfound

/-- A name under which a sound table has a row can be looked up. -/
theorem exists_row? (h : SoundRows layout fits t) {name : String} (hhas : has t name = true) :
    ∃ a, row? layout t name = .ok (some a) := by
  obtain ⟨bytes, hget⟩ := Option.isSome_iff_exists.1 hhas
  obtain ⟨a, ha, -⟩ := h _ (Table.get?_eq_some_iff.1 hget)
  refine ⟨a, ?_⟩
  rw [row?, hget]
  simp only [ha]
  rfl

/-- All rows of a sound table can be read. -/
theorem exists_all (h : SoundRows layout fits t) : ∃ as, all layout t = .ok as :=
  exists_mapM_eq_ok fun row hrow =>
    have ⟨a, ha, _⟩ := h row hrow
    ⟨a, ha⟩

end SoundRows

/-- What is read from a table stands in one of its rows. -/
theorem mem_of_all_eq_ok {α : Type} {layout : Json.Layout α} {t : Table Bytes Bytes} {as : List α}
    (h : all layout t = .ok as) {a : α} : a ∈ as ↔ ∃ row ∈ t.rows, decode layout row.2 = .ok a :=
  mem_of_mapM_eq_ok h

/-- What is read from a sound table comes in the order of the keys. -/
theorem SoundRows.pairwise_of_all_eq_ok {α : Type} {layout : Json.Layout α}
    {fits : Bytes → α → Prop} {t : Table Bytes Bytes} {key : α → Bytes}
    (h : SoundRows layout fits t) (hkey : ∀ k a, fits k a → k = key a) {as : List α}
    (hall : all layout t = .ok as) : as.Pairwise fun a b => key a < key b := by
  have hkeys : as.map key = t.rows.map (·.1) := by
    refine map_of_mapM_eq_ok hall fun row hrow a ha => ?_
    obtain ⟨b, hb, hfit⟩ := h row hrow
    obtain rfl : a = b := Except.ok.inj (ha.symm.trans hb)
    exact (hkey _ _ hfit).symm
  have hordered : (t.rows.map (·.1)).Pairwise (· < ·) := List.pairwise_map.2 t.ordered
  rw [← hkeys] at hordered
  exact List.pairwise_map.1 hordered

theorem has_of_row?_eq_ok {α : Type} {layout : Json.Layout α} {t : Table Bytes Bytes}
    {name : String} {a : α} (h : row? layout t name = .ok (some a)) : has t name = true := by
  rw [row?] at h
  rw [has, Table.contains]
  split at h
  · cases h
  · next row hget =>
    rw [hget]
    rfl

theorem exists_of_row_eq_ok {α : Type} {layout : Json.Layout α} {t : Table Bytes Bytes}
    {name : String} {subject : Subject} {a : α} (h : row layout t name subject = .ok a) :
    ∃ bytes, t.get? (utf8 name) = some bytes ∧ decode layout bytes = .ok a := by
  rw [row] at h
  obtain ⟨found, hfound, h⟩ := of_bind_eq_ok h
  rw [row?] at hfound
  split at hfound
  · cases hfound
    cases h
  · next bytes hget =>
    cases hb : decode layout bytes with
    | error e =>
      rw [hb] at hfound
      cases hfound
    | ok b =>
      rw [hb] at hfound
      cases hfound
      cases h
      exact ⟨bytes, hget, hb⟩

/-- A wrap of a secret that is there leads to it. -/
theorem exists_accessThrough {l : Ledger} {fits : Bytes → Secret → Prop}
    (h : SoundRows Secret.layout fits l.secrets) {w : Wrap}
    (hthere : has l.secrets w.secret = true) :
    ∃ a, l.accessThrough w = .ok (some a) := by
  obtain ⟨s, hs⟩ := h.exists_row? hthere
  refine ⟨⟨s.name, s.payload, w.sealedKey, w.path, w.recipient⟩, ?_⟩
  rw [accessThrough, hs]
  rfl

/-! ### Sound wraps -/

variable {l l' : Ledger} {fits : Bytes → Wrap → Prop}

theorem wrapRows_subset (l : Ledger) (secret : Option String) :
    l.wrapRows secret ⊆ l.wraps.rows := by
  cases secret with
  | none => exact List.Subset.refl _
  | some s => exact List.filter_subset_self _

/-- A wrap that stands where the scan for its secret looks is covered by it. -/
theorem mem_wrapRows {row : Bytes × Bytes} {secret : Option String} {w : Wrap}
    (hrow : row ∈ l.wraps.rows) (hkey : w.standsAt row.1)
    (hsecret : secret.all (w.secret = ·) = true) : row ∈ l.wrapRows secret := by
  cases secret with
  | none => exact hrow
  | some s =>
    obtain rfl : w.secret = s := by simpa using hsecret
    refine List.mem_filter.2 ⟨hrow, ?_⟩
    simp [hkey.1, hkey.2]

/-- **The scan for wraps never fails on a sound table.** -/
theorem exists_scanWraps (h : SoundRows Wrap.layout fits l.wraps) (secret : Option String) :
    ∃ ws, l.scanWraps secret = .ok ws := by
  obtain ⟨ws, hws⟩ : ∃ ws, (l.wrapRows secret).mapM
      (fun row => (decode Wrap.layout row.2).map (row.1, ·)) = .ok ws := by
    refine exists_mapM_eq_ok fun row hrow => ?_
    obtain ⟨w, hw, -⟩ := h row (wrapRows_subset l secret hrow)
    refine ⟨(row.1, w), ?_⟩
    simp only [hw]
    rfl
  refine ⟨ws.filter fun x => secret.all (x.2.secret = ·), ?_⟩
  show ((l.wrapRows secret).mapM _ >>= _) = _
  rw [hws]
  rfl

/-- What the scan finds are the wraps of the secret in the rows that it covers. -/
theorem mem_scanWraps_iff {secret : Option String} {ws : List (Bytes × Wrap)}
    (h : l.scanWraps secret = .ok ws) {x : Bytes × Wrap} :
    x ∈ ws ↔ (∃ row ∈ l.wrapRows secret, row.1 = x.1 ∧ decode Wrap.layout row.2 = .ok x.2) ∧
      secret.all (x.2.secret = ·) = true := by
  rw [scanWraps] at h
  obtain ⟨found, hfound, h⟩ := of_bind_eq_ok h
  cases h
  rw [List.mem_filter, mem_of_mapM_eq_ok hfound]
  refine and_congr_left' (exists_congr fun row => and_congr_right' ?_)
  cases hrow : decode Wrap.layout row.2 with
  | error e => simp [hrow, Except.map]
  | ok w => simp [hrow, Except.map, Prod.ext_iff]

theorem fits_of_mem_scanWraps (hsound : SoundRows Wrap.layout fits l.wraps)
    {secret : Option String} {ws : List (Bytes × Wrap)} (h : l.scanWraps secret = .ok ws)
    {x : Bytes × Wrap} (hx : x ∈ ws) : fits x.1 x.2 := by
  obtain ⟨⟨row, hrow, hkey, hw⟩, -⟩ := (mem_scanWraps_iff h).1 hx
  obtain ⟨w, hw', hfit⟩ := hsound row (wrapRows_subset l secret hrow)
  rw [hw] at hw'
  cases hw'
  exact hkey ▸ hfit

/-- **The wraps that are removed are gone**, and the others stay as they are. -/
theorem of_removeWraps_of_sound (hsound : SoundRows Wrap.layout fits l.wraps)
    (hkeys : ∀ key w, fits key w → w.standsAt key) {secret : Option String}
    {remove : Wrap → Bool} {n : Nat} (h : l.removeWraps secret remove = .ok (n, l')) :
    ∃ t, l' = { l with wraps := t } ∧ SoundRows Wrap.layout
      (fun key w => fits key w ∧ ¬ (remove w = true ∧ secret.all (w.secret = ·) = true)) t := by
  rw [removeWraps] at h
  obtain ⟨ws, hws, h⟩ := of_bind_eq_ok h
  cases h
  refine ⟨_, rfl, hsound.of_subset (List.filter_subset_self _) fun row hrow w hw hfit =>
    ⟨hfit, fun hbidden => ?_⟩⟩
  obtain ⟨hremove, hsecret⟩ := hbidden
  obtain ⟨hrow, hkept⟩ := List.mem_filter.1 hrow
  have hkey : w.standsAt row.1 := hkeys row.1 w hfit
  -- the scan has found this wrap, so its key is among those that are removed
  have hfound : (row.1, w) ∈ ws :=
    (mem_scanWraps_iff hws).2 ⟨⟨row, mem_wrapRows hrow hkey hsecret, rfl, hw⟩, hsecret⟩
  have hgone : row.1 ∈ (ws.filter fun x => remove x.2).map (·.1) :=
    List.mem_map.2 ⟨_, List.mem_filter.2 ⟨hfound, hremove⟩, rfl⟩
  have hthere : row.1 ∉ (ws.filter fun x => remove x.2).map (·.1) := by simpa using hkept
  exact hthere hgone

end Ledger

end Strongroom
