import Strongroom.Proofs.Ledger.Lifetimes

/-!
# What a principal can open

A ledger without corrupt rows gives a principal one thing for each wrap that it can open, in the
order of the wraps: the secret that the wrap is for, with the key in the wrap
(`Intact.accessible_eq_ok`).  So whoever can open none gets nothing (`Intact.accessible_eq_nil`),
and can read no secret (`Intact.canRead_eq_false`).
-/

namespace Strongroom.Ledger

variable {l : Ledger} {name : String} {p : Principal} {secret : Option String} {w : Wrap}
variable {ws : List (Bytes × Wrap)}

/-- What a wrap leads to. -/
def through (l : Ledger) (w : Wrap) : AccessibleSecret :=
  ⟨w.secret, ((l.secret? w.secret).map (·.payload)).getD [], w.sealedKey, w.path, w.recipient⟩

/-- A principal can open a wrap of the secret, or of any secret. -/
def CanOpen (l : Ledger) (p : Principal) (secret : Option String) (key : Bytes) (w : Wrap) : Prop :=
  l.wrap? key = some w ∧ secret.all (w.secret = ·) = true ∧ p.opens w.recipient = true

/-! ### The scan for wraps -/

theorem Intact.mem_scanWraps (h : l.Intact) (hws : l.scanWraps secret = .ok ws)
    {x : Bytes × Wrap} :
    x ∈ ws ↔ l.wrap? x.1 = some x.2 ∧ secret.all (x.2.secret = ·) = true := by
  rw [mem_scanWraps_iff hws, wrap?_eq_some_iff]
  refine and_congr_left fun hsecret => ⟨?_, ?_⟩
  · rintro ⟨row, hrow, hkey, hdecode⟩
    refine ⟨row.2, ?_, hdecode⟩
    rw [← hkey]
    exact wrapRows_subset l secret hrow
  · rintro ⟨bytes, hrow, hdecode⟩
    have hfit : WrapFits l.groups l.secrets x.1 x.2 :=
      h.fits_of_wrap? (wrap?_eq_some_iff.2 ⟨bytes, hrow, hdecode⟩)
    exact ⟨(x.1, bytes), mem_wrapRows hrow hfit.standsAt hsecret, rfl, hdecode⟩

/-- The wraps come in the order of their keys. -/
theorem pairwise_of_scanWraps_eq_ok (h : l.scanWraps secret = .ok ws) :
    ws.Pairwise fun x y => x.1 < y.1 := by
  rw [scanWraps] at h
  obtain ⟨found, hfound, h⟩ := of_bind_eq_ok h
  cases h
  have hrows : (l.wrapRows secret).Sublist l.wraps.rows := by
    cases secret with
    | none => exact List.Sublist.refl _
    | some s => exact List.filter_sublist
  have hkeys : found.map (·.1) = (l.wrapRows secret).map (·.1) := by
    refine map_of_mapM_eq_ok hfound fun row _ x hx => ?_
    obtain ⟨key, bytes⟩ := row
    dsimp only at hx
    cases hw : decode Wrap.layout bytes with
    | error e =>
      rw [hw] at hx
      cases hx
    | ok w =>
      rw [hw] at hx
      cases hx
      rfl
  have hordered : ((l.wrapRows secret).map (·.1)).Pairwise (· < ·) :=
    List.pairwise_map.2 (l.wraps.ordered.sublist hrows)
  rw [← hkeys] at hordered
  exact (List.pairwise_map.1 hordered).filter _

/-- No wrap is found twice. -/
theorem nodup_keys_of_scanWraps (h : l.scanWraps secret = .ok ws) : (ws.map (·.1)).Nodup :=
  List.pairwise_map.2 <| (pairwise_of_scanWraps_eq_ok h).imp fun hlt (heq : _ = _) =>
    absurd (heq ▸ hlt) (List.lt_irrefl _)

/-! ### What the wraps lead to -/

theorem Intact.accessThrough_eq (h : l.Intact) (hthere : has l.secrets w.secret = true) :
    l.accessThrough w = .ok (some (l.through w)) := by
  obtain ⟨s, hs⟩ := h.exists_secret? hthere
  have hthrough : l.through w = ⟨s.name, s.payload, w.sealedKey, w.path, w.recipient⟩ := by
    rw [through, hs, h.name_of_secret? hs]
    rfl
  rw [secret?] at hs
  rw [accessThrough, h.secrets.row?_eq, hs, hthrough]
  rfl

/-- A wrap leads to the same as long as its secret is there. -/
theorem Intact.through_run (h : l.Intact) {cs : List Command}
    (hthere : has l.secrets w.secret = true)
    (hstays : ∀ e ∈ (run Ledger.execute l cs).1, e.Succeeds → e.command ≠ .deleteSecret w.secret) :
    (run Ledger.execute l cs).2.through w = l.through w := by
  obtain ⟨s, hs⟩ := h.exists_secret? hthere
  rw [through, through, h.secret?_run hs hstays, hs]

/-- **A principal gets one thing for each wrap that it can open**, in the order of the scan. -/
theorem Intact.accessible_eq_ok (h : l.Intact) (hp : l.getPrincipal name = .ok p)
    (hthere : ∀ s ∈ secret, has l.secrets s = true) (hws : l.scanWraps secret = .ok ws) :
    l.accessible name secret =
      .ok ((ws.filter fun x => p.opens x.2.recipient).map fun x => l.through x.2) := by
  have hfound : (ws.filter fun x => p.opens x.2.recipient).mapM (fun x => l.accessThrough x.2) =
      .ok ((ws.filter fun x => p.opens x.2.recipient).map fun x => some (l.through x.2)) :=
    mapM_eq_ok fun x hx => h.accessThrough_eq
      (h.fits_of_wrap? ((h.mem_scanWraps hws).1 (List.mem_of_mem_filter hx)).1).secret
  have hread : (l.scanWraps secret >>= fun wraps =>
      (wraps.filter fun x => p.opens x.2.recipient).mapM (fun x => l.accessThrough x.2) >>=
      fun found => .ok (found.filterMap id)) =
      .ok ((ws.filter fun x => p.opens x.2.recipient).map fun x => l.through x.2) := by
    rw [hws]
    show ((ws.filter fun x => p.opens x.2.recipient).mapM (fun x => l.accessThrough x.2) >>=
      fun found => Except.ok (found.filterMap id)) = _
    rw [hfound]
    show Except.ok (List.filterMap id (List.map _ _)) = _
    rw [List.filterMap_map]
    exact congrArg Except.ok (congrFun List.filterMap_eq_map _)
  rw [getPrincipal] at hp
  rw [accessible, hp]
  cases secret with
  | none => exact hread
  | some s =>
    simp only [hthere s rfl]
    exact hread

/-- What a principal gets comes through the wraps that it can open, each under a key of its own. -/
theorem Intact.exists_accessible (h : l.Intact) (hp : l.getPrincipal name = .ok p)
    (hthere : ∀ s ∈ secret, has l.secrets s = true) :
    ∃ xs : List (Bytes × Wrap), l.accessible name secret = .ok (xs.map fun x => l.through x.2) ∧
      (xs.map (·.1)).Nodup ∧ ∀ x, x ∈ xs ↔ l.CanOpen p secret x.1 x.2 := by
  obtain ⟨ws, hws⟩ := exists_scanWraps h.wraps secret
  refine ⟨ws.filter fun x => p.opens x.2.recipient, h.accessible_eq_ok hp hthere hws,
    (nodup_keys_of_scanWraps hws).sublist (List.filter_sublist.map _), fun x => ?_⟩
  rw [List.mem_filter, h.mem_scanWraps hws, CanOpen, and_assoc]

/-- Without the secret there is nothing to open. -/
theorem fetchSecret_eq_error {s : String} (hp : l.getPrincipal name = .ok p)
    (hfree : has l.secrets s = false) : l.fetchSecret name s = .error (.notFound (.secret s)) := by
  rw [getPrincipal] at hp
  rw [fetchSecret, accessible, hp]
  simp only [hfree]
  rfl

/-- Who can open none of the wraps gets nothing. -/
theorem Intact.accessible_eq_nil (h : l.Intact) (hp : l.getPrincipal name = .ok p)
    (hthere : ∀ s ∈ secret, has l.secrets s = true) (hclosed : ∀ key w, ¬l.CanOpen p secret key w) :
    l.accessible name secret = .ok [] := by
  obtain ⟨xs, haccessible, -, hmem⟩ := h.exists_accessible hp hthere
  have hnil : xs = [] :=
    List.eq_nil_iff_forall_not_mem.2 fun x hx => hclosed x.1 x.2 ((hmem x).1 hx)
  rw [haccessible, hnil]
  rfl

theorem Intact.canRead_eq_false (h : l.Intact) (hp : l.getPrincipal name = .ok p) {s : String}
    (hclosed : ∀ key w, ¬l.CanOpen p (some s) key w) : l.canRead name s = .ok false := by
  rw [canRead]
  by_cases hthere : has l.secrets s = true
  · rw [fetchSecret, h.accessible_eq_nil hp (fun s' hs' => by cases hs'; exact hthere) hclosed]
    rfl
  · rw [fetchSecret_eq_error hp (by simpa using hthere)]

/-- Whoever can open a wrap of a secret can read it. -/
theorem Intact.canRead_eq_true (h : l.Intact) (hp : l.getPrincipal name = .ok p) {s : String}
    {key : Bytes} (hopen : l.CanOpen p (some s) key w) : l.canRead name s = .ok true := by
  have hsecret : w.secret = s := by simpa using hopen.2.1
  have hthere : ∀ s' ∈ some s, has l.secrets s' = true := by
    intro s' hs'
    cases hs'
    exact hsecret ▸ (h.fits_of_wrap? hopen.1).secret
  obtain ⟨xs, haccessible, -, hmem⟩ := h.exists_accessible hp hthere
  have hx : (key, w) ∈ xs := (hmem (key, w)).2 hopen
  rw [canRead, fetchSecret, haccessible]
  cases xs with
  | nil => cases hx
  | cons x xs => rfl

end Strongroom.Ledger
