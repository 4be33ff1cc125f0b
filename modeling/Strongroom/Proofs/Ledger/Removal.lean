import Strongroom.Proofs.Ledger.ReadPaths

/-!
# Wraps that are taken away

A scan reads the rows of the wraps one by one, so counting the wraps that it finds is counting rows
(`countP_of_scanWraps`).  On an intact ledger a removal therefore counts and takes away just the
rows of the wraps that it is for, wherever in the table they stand, and the other rows keep their
keys, their bytes and their order (`Intact.removeWraps_eq`).  The same is true of every command that
makes no wraps: what a scan finds behind it is what the scan has found before it, without the wraps
whose grants it ends (`Intact.scanWraps_of_removes`).
-/

namespace Strongroom

/-- Whether a row is that of a wrap which passes a test. -/
def isWrap (test : Wrap → Bool) (row : Bytes) : Bool :=
  match Ledger.decode Wrap.layout row with
  | .ok w => test w
  | .error _ => false

theorem isWrap_of_decode {row : Bytes} {w : Wrap} (hw : Ledger.decode Wrap.layout row = .ok w)
    (test : Wrap → Bool) : isWrap test row = test w := by
  rw [isWrap, hw]

namespace Ledger

variable {l l' : Ledger} {c : Command} {a : Answer} {ws : List (Bytes × Wrap)}

/-- Wraps are found as the rows come. -/
theorem map_of_scanWraps (hws : l.scanWraps none = .ok ws) (test : Wrap → Bool) :
    ws.map (fun x => test x.2) = l.wraps.rows.map fun row => isWrap test row.2 := by
  rw [scanWraps] at hws
  obtain ⟨found, hfound, hws⟩ := of_bind_eq_ok hws
  have hall : ws = found := by
    rw [← Except.ok.inj hws]
    exact List.filter_true _
  rw [hall]
  refine map_of_mapM_eq_ok hfound fun row _ x hx => ?_
  obtain ⟨key, bytes⟩ := row
  cases hw : decode Wrap.layout bytes with
  | error e =>
    simp only [hw] at hx
    cases hx
  | ok w =>
    simp only [hw] at hx
    cases hx
    exact (isWrap_of_decode hw test).symm

/-- The wraps that are found are counted by their rows. -/
theorem countP_of_scanWraps (hws : l.scanWraps none = .ok ws) (test : Wrap → Bool) :
    ws.countP (fun x => test x.2) = l.wraps.rows.countP fun row => isWrap test row.2 := by
  have hcount := congrArg (List.countP fun b => b) (map_of_scanWraps hws test)
  rw [List.countP_map, List.countP_map] at hcount
  exact hcount

/-- A scan for one secret or for all finds part of all wraps. -/
theorem Intact.scanWraps_eq_filter_all (h : l.Intact) (hws : l.scanWraps none = .ok ws)
    (secret : Option String) :
    l.scanWraps secret = .ok (ws.filter fun x => secret.all (x.2.secret = ·)) := by
  cases secret with
  | none =>
    rw [hws]
    exact congrArg _ (List.filter_true _).symm
  | some s => exact h.scanWraps_eq_filter hws s

/-- A table of wraps is a part of another one if it has the same wraps but for those whose rows fail
a test. -/
theorem SoundRows.eq_filter {fits fits' : Bytes → Wrap → Prop} {t t' : Table Bytes Bytes}
    {keep : Bytes → Bool} (h : SoundRows Wrap.layout fits t) (h' : SoundRows Wrap.layout fits' t')
    (hmem : ∀ row w, decode Wrap.layout row.2 = .ok w →
      (row ∈ t'.rows ↔ row ∈ t.rows ∧ keep row.2 = true)) :
    t' = t.filter fun _ row => keep row := by
  refine Table.ext_get? fun key => Option.ext fun bytes => ?_
  rw [Table.get?_eq_some_iff, Table.get?_eq_some_iff]
  show _ ↔ (key, bytes) ∈ t.rows.filter fun row => keep row.2
  rw [List.mem_filter]
  constructor
  · intro hrow
    obtain ⟨w, hw, -⟩ := h' _ hrow
    exact (hmem _ w hw).1 hrow
  · rintro ⟨hrow, hkeep⟩
    obtain ⟨w, hw, -⟩ := h _ hrow
    exact (hmem _ w hw).2 ⟨hrow, hkeep⟩

/-- **A removal takes away the rows of the wraps that it is for, and counts them.** -/
theorem Intact.removeWraps_eq (h : l.Intact) (secret : Option String) (remove : Wrap → Bool)
    {gone : Bytes → Bool}
    (hgone : gone = isWrap fun w => remove w && secret.all (w.secret = ·)) :
    l.removeWraps secret remove = .ok (l.wraps.rows.countP fun row => gone row.2,
      { l with wraps := l.wraps.filter fun _ row => !gone row }) := by
  subst hgone
  obtain ⟨ws, hws⟩ := exists_scanWraps h.wraps none
  have hcount := countP_of_scanWraps hws fun w => remove w && secret.all (w.secret = ·)
  obtain ⟨t, ht⟩ : ∃ t, l.removeWraps secret remove =
      .ok (ws.countP fun x => remove x.2 && secret.all (x.2.secret = ·),
        { l with wraps := t }) := by
    rw [Ledger.removeWraps, h.scanWraps_eq_filter_all hws secret]
    refine ⟨_, congrArg Except.ok (Prod.ext ?_ rfl)⟩
    rw [List.countP_eq_length_filter, List.length_map, List.filter_filter]
  have hrows : t = l.wraps.filter fun _ row =>
      !isWrap (fun w => remove w && secret.all (w.secret = ·)) row := by
    refine h.wraps.eq_filter (h.removeWraps ht).wraps fun row w hw => ?_
    rw [mem_of_removeWraps h.wraps (fun _ _ hfit => hfit.standsAt) ht hw, isWrap_of_decode hw,
      ← Bool.and_eq_true, Bool.not_eq_true, Bool.not_eq_true']
  rw [ht, hcount, hrows]

/-- A scan finds the same as before, without the wraps whose grants have ended. -/
theorem Intact.scanWraps_of_removes (h : l.Intact) (hok : l.execute c = .ok (a, l'))
    (hnone : c.newWraps = []) {keep : Wrap → Bool}
    (hkeep : ∀ w, keep w = true ↔ ¬ c.Ends w.secret w.recipient)
    (hws : l.scanWraps none = .ok ws) :
    l'.scanWraps none = .ok (ws.filter fun x => keep x.2) := by
  have h' := h.execute hok
  obtain ⟨ws', hws'⟩ := exists_scanWraps h'.wraps none
  rw [hws']
  refine congrArg _ (Table.eq_of_mem_iff (pairwise_of_scanWraps_eq_ok hws')
    ((pairwise_of_scanWraps_eq_ok hws).filter _) fun x => ?_)
  rw [List.mem_filter, h.mem_scanWraps hws, h'.mem_scanWraps hws', wrap?_eq_some_iff,
    wrap?_eq_some_iff, hkeep]
  simp only [Option.all_none, and_true]
  constructor
  · rintro ⟨bytes, hrow, hw⟩
    obtain ⟨hrow, hends⟩ := (h.mem_wraps_iff_of_removes hok hnone hw).1 hrow
    exact ⟨⟨bytes, hrow, hw⟩, hends⟩
  · rintro ⟨⟨bytes, hrow, hw⟩, hends⟩
    exact ⟨bytes, (h.mem_wraps_iff_of_removes hok hnone hw).2 ⟨hrow, hends⟩, hw⟩

end Ledger

end Strongroom
