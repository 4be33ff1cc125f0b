import Strongroom.Proofs.Ledger.Readable
import Strongroom.Proofs.Ledger.Records

/-!
# One wrap at a time

A wrap is written once and never again: a command makes its new wraps (`Command.newWraps`) and takes
away those of the grants that it ends (`Command.Ends`).  So a row of the table after a command is a
new one or an old one whose grant has not ended (`Intact.of_mem_wraps`), whatever the counter shows.
The converse needs the next numbers to be free, for a number in use takes the place of another wrap
of the same secret: then the old rows stay (`Intact.mem_wraps_of_not_ends`) and the new wraps come
under new keys (`Intact.exists_row_of_mem_newWraps`).
-/

namespace Strongroom

/-- The wraps that a command makes when it succeeds. -/
def Command.newWraps (c : Command) : List Wrap :=
  match c with
  | .createSecret now caller new =>
    ⟨new.name, .group superGroup, new.superKey, new.path, now.1⟩ ::
      (Ledger.given new.creatorKey).toList.map fun key =>
        ⟨new.name, .principal caller.name, key, new.path, now.1⟩
  | .assignToGroup now secret group sealedKey path =>
    [⟨secret, .group group, sealedKey, path, now.1⟩]
  | .assignToPrincipal now secret principal sealedKey path =>
    [⟨secret, .principal principal, sealedKey, path, now.1⟩]
  | _ => []

theorem Command.length_newWraps (c : Command) : c.newWraps.length = c.wraps := by
  cases c with
  | createSecret now caller new =>
    cases hkey : Ledger.given new.creatorKey with
    | none => simp [newWraps, wraps, hkey]
    | some key => simp [newWraps, wraps, hkey]
  | _ => rfl

theorem Command.isValid_of_mem_newWraps {c : Command} {w : Wrap} (hw : w ∈ c.newWraps) :
    w.createdAt.IsValid := by
  cases c with
  | createSecret now caller new =>
    rcases List.mem_cons.1 hw with rfl | hw
    · exact now.2
    · obtain ⟨key, -, rfl⟩ := List.mem_map.1 hw
      exact now.2
  | assignToGroup now secret group sealedKey path =>
    obtain rfl := List.mem_singleton.1 hw
    exact now.2
  | assignToPrincipal now secret principal sealedKey path =>
    obtain rfl := List.mem_singleton.1 hw
    exact now.2
  | _ => cases hw

/-- A command that makes wraps ends no grants. -/
theorem Command.not_ends_of_newWraps {c : Command} (h : c.newWraps ≠ []) (secret : String)
    (r : Recipient) : ¬c.Ends secret r := by
  cases c with
  | createSecret | assignToGroup | assignToPrincipal => exact id
  | _ => exact absurd rfl h

namespace Ledger

variable {l l' : Ledger} {c : Command} {a : Answer} {row : Bytes × Bytes} {w : Wrap}

/-! ### Rows that are removed -/

/-- **The rows that a removal leaves** are those of the wraps that it is not for. -/
theorem mem_of_removeWraps {fits : Bytes → Wrap → Prop}
    (hsound : SoundRows Wrap.layout fits l.wraps)
    (hkeys : ∀ key w, fits key w → w.standsAt key) {secret : Option String}
    {remove : Wrap → Bool} {n : Nat} (h : l.removeWraps secret remove = .ok (n, l'))
    (hw : decode Wrap.layout row.2 = .ok w) :
    row ∈ l'.wraps.rows ↔
      row ∈ l.wraps.rows ∧ ¬(remove w = true ∧ secret.all (w.secret = ·) = true) := by
  rw [removeWraps] at h
  obtain ⟨ws, hws, h⟩ := of_bind_eq_ok h
  cases h
  show row ∈ List.filter _ _ ↔ _
  rw [List.mem_filter]
  refine and_congr_right fun hrow => ?_
  have hremoved : row.1 ∈ (ws.filter fun x => remove x.2).map (·.1) ↔
      remove w = true ∧ secret.all (w.secret = ·) = true := by
    constructor
    · intro hkey
      obtain ⟨x, hx, hxkey⟩ := List.mem_map.1 hkey
      obtain ⟨hx, hremove⟩ := List.mem_filter.1 hx
      obtain ⟨⟨row', hrow', hkey', hdecode⟩, hsecret⟩ := (mem_scanWraps_iff hws).1 hx
      -- there is one row under a key
      obtain rfl : row' = row := Table.eq_of_key_eq l.wraps.ordered
        (wrapRows_subset l secret hrow') hrow (hkey'.trans hxkey)
      rw [hw] at hdecode
      cases hdecode
      exact ⟨hremove, hsecret⟩
    · rintro ⟨hremove, hsecret⟩
      obtain ⟨w', hw', hfit⟩ := hsound row hrow
      rw [hw] at hw'
      cases hw'
      have hfound : (row.1, w) ∈ ws := (mem_scanWraps_iff hws).2
        ⟨⟨row, mem_wrapRows hrow (hkeys _ _ hfit) hsecret, rfl, hw⟩, hsecret⟩
      exact List.mem_map.2 ⟨_, List.mem_filter.2 ⟨hfound, hremove⟩, rfl⟩
  rw [← hremoved]
  simp

/-- **Every command that only takes wraps away** takes away those of the grants that it ends. -/
theorem Intact.mem_wraps_iff_of_removes (h : l.Intact) (hok : l.execute c = .ok (a, l'))
    (hnone : c.newWraps = []) (hw : decode Wrap.layout row.2 = .ok w) :
    row ∈ l'.wraps.rows ↔ row ∈ l.wraps.rows ∧ ¬c.Ends w.secret w.recipient := by
  have hkeys : ∀ key w, WrapFits l.groups l.secrets key w → w.standsAt key :=
    fun _ _ hfit => hfit.standsAt
  cases c with
  | createSecret now caller new => cases hnone
  | assignToGroup now secret group sealedKey path => cases hnone
  | assignToPrincipal now secret principal sealedKey path => cases hnone
  | deleteGroup name =>
    obtain ⟨-, n, t, ps, hremove, -, rfl⟩ := of_deleteGroup_eq_ok (of_changed_eq_ok hok)
    refine (mem_of_removeWraps (l := { l with groups := l.groups.erase (utf8 name) }) h.wraps hkeys
      hremove hw).trans ?_
    simp [Command.Ends]
  | deletePrincipal name =>
    obtain ⟨n, hremove⟩ := of_deletePrincipal_eq_ok (of_changed_eq_ok hok)
    refine (mem_of_removeWraps (l := { l with principals := l.principals.erase (utf8 name) })
      h.wraps hkeys hremove hw).trans ?_
    simp [Command.Ends]
  | revokeFromGroup secret group =>
    obtain ⟨n, hrevoke⟩ := of_counted_eq_ok hok
    obtain ⟨-, -, hrevoke⟩ := of_bind_eq_ok hrevoke
    refine (mem_of_removeWraps h.wraps hkeys (removeWraps_of_revoke hrevoke) hw).trans ?_
    simp only [Command.Ends, Option.all_some, Bool.and_eq_true, decide_eq_true_eq]
    grind
  | revokeFromPrincipal secret principal =>
    obtain ⟨n, hrevoke⟩ := of_counted_eq_ok hok
    refine (mem_of_removeWraps h.wraps hkeys (removeWraps_of_revoke hrevoke) hw).trans ?_
    simp only [Command.Ends, Option.all_some, Bool.and_eq_true, decide_eq_true_eq]
    grind
  | deleteSecret name =>
    obtain ⟨n, t, hremove, rfl⟩ := of_deleteSecret_eq_ok (of_changed_eq_ok hok)
    refine (mem_of_removeWraps h.wraps hkeys hremove hw).trans ?_
    simp [Command.Ends, eq_comm]
  | bootstrap now setup =>
    have hwraps : l'.wraps = l.wraps := by
      obtain ⟨-, -, hsetup⟩ := of_bootstrap_eq_ok (of_changed_eq_ok hok)
      split at hsetup
      · rw [hsetup]
        rfl
      · rw [of_addAdmin_eq_ok hsetup]
        rfl
    rw [hwraps]
    simp [Command.Ends]
  | registerPrincipal now new =>
    obtain ⟨-, rfl⟩ := of_registerPrincipal_eq_ok (of_changed_eq_ok hok)
    simp [Command.Ends]
  | createGroup now name kind publicKey sealedPrivateKey =>
    obtain ⟨-, -, rfl⟩ := of_createGroup_eq_ok (of_changed_eq_ok hok)
    simp [Command.Ends]
  | reassignPrincipal principal group sealedGroupKey =>
    obtain ⟨-, -, p, -, rfl⟩ := of_reassignPrincipal_eq_ok (of_changed_eq_ok hok)
    simp [Command.Ends]
  | _ =>
    obtain rfl := of_shown_eq_ok hok
    simp [Command.Ends]

theorem Intact.wraps_subset_of_removes (h : l.Intact) (hok : l.execute c = .ok (a, l'))
    (hnone : c.newWraps = []) : l'.wraps.rows ⊆ l.wraps.rows := by
  intro row hrow
  obtain ⟨w, hw, -⟩ := (h.execute hok).wraps row hrow
  exact ((h.mem_wraps_iff_of_removes hok hnone hw).1 hrow).1

/-! ### Rows that are added -/

/-- **Every command that makes wraps** makes them one after another, and touches neither the wraps
nor their counter otherwise. -/
theorem of_execute_newWraps (hok : l.execute c = .ok (a, l')) (hsome : c.newWraps ≠ []) :
    ∃ stored : Ledger, stored.wraps = l.wraps ∧ stored.counters = l.counters ∧
      l' = c.newWraps.foldl addWrap stored := by
  cases c with
  | createSecret now caller new =>
    obtain ⟨-, -, hl⟩ := of_createSecret_eq_ok (of_changed_eq_ok hok)
    let stored : Ledger := { l with
      secrets := l.secrets.insert (utf8 new.name)
        (Secret.toJson ⟨new.name, new.payload, caller.name, now.1⟩) }
    refine ⟨stored, rfl, rfl, ?_⟩
    cases hkey : given new.creatorKey with
    | none =>
      simp only [hkey] at hl
      rw [hl, Command.newWraps, hkey]
      rfl
    | some key =>
      simp only [hkey] at hl
      rw [hl, Command.newWraps, hkey]
      rfl
  | assignToGroup now secret group sealedKey path =>
    obtain ⟨-, -, hgrant⟩ := of_bind_eq_ok (of_changed_eq_ok hok)
    exact ⟨l, rfl, rfl, (of_grant_eq_ok hgrant).2⟩
  | assignToPrincipal now secret principal sealedKey path =>
    exact ⟨l, rfl, rfl, (of_grant_eq_ok (of_changed_eq_ok hok)).2⟩
  | _ => exact absurd rfl hsome

theorem of_mem_wraps_addWrap {w' : Wrap} (hvalid : w'.createdAt.IsValid)
    (hrow : row ∈ (l.addWrap w').wraps.rows) (hw : decode Wrap.layout row.2 = .ok w) :
    row ∈ l.wraps.rows ∨ w = w' := by
  rcases Table.mem_rows_insert.1 hrow with rfl | ⟨hrow, -⟩
  · rw [Wrap.decode_toJson hvalid] at hw
    exact .inr (Except.ok.inj hw).symm
  · exact .inl hrow

theorem of_mem_wraps_addAll {ws : List Wrap} (hvalid : ∀ w ∈ ws, w.createdAt.IsValid)
    (hrow : row ∈ (ws.foldl addWrap l).wraps.rows) (hw : decode Wrap.layout row.2 = .ok w) :
    row ∈ l.wraps.rows ∨ w ∈ ws := by
  induction ws generalizing l with
  | nil => exact .inl hrow
  | cons first ws ih =>
    rcases ih (fun v hv => hvalid v (List.mem_cons_of_mem _ hv)) hrow with hrow | hmem
    · rcases of_mem_wraps_addWrap (hvalid first List.mem_cons_self) hrow hw with hrow | rfl
      · exact .inl hrow
      · exact .inr List.mem_cons_self
    · exact .inr (List.mem_cons_of_mem _ hmem)

theorem get?_wraps_addWrap (l : Ledger) (w : Wrap) :
    (l.addWrap w).wraps.get? (wrapKey w.secret (l.lastWrap + 1)) = some w.toJson := by
  rw [addWrap, Table.get?_insert, if_pos rfl]

/-- **Where the wraps come from**: each was there before and its grant has not ended, or it is new.
-/
theorem Intact.of_mem_wraps (h : l.Intact) (hok : l.execute c = .ok (a, l'))
    (hrow : row ∈ l'.wraps.rows) (hw : decode Wrap.layout row.2 = .ok w) :
    row ∈ l.wraps.rows ∧ ¬c.Ends w.secret w.recipient ∨ w ∈ c.newWraps := by
  by_cases hnone : c.newWraps = []
  · exact .inl ((h.mem_wraps_iff_of_removes hok hnone hw).1 hrow)
  · obtain ⟨stored, hwraps, -, rfl⟩ := of_execute_newWraps hok hnone
    rcases of_mem_wraps_addAll (fun _ => Command.isValid_of_mem_newWraps) hrow hw with hrow | hnew
    · exact .inl ⟨hwraps ▸ hrow, Command.not_ends_of_newWraps hnone _ _⟩
    · exact .inr hnew

/-! ### Rows that stay -/

/-- The number that the next wrap gets is not in use, whatever secret it is for. -/
def NextFree (l : Ledger) : Prop :=
  ∀ secret, l.wraps.get? (wrapKey secret (l.lastWrap + 1)) = none

/-- A secret that is not there has no wraps. -/
theorem Intact.get?_wrapKey (h : l.Intact) {secret : String} (hfree : has l.secrets secret = false)
    (n : UInt64) : l.wraps.get? (wrapKey secret n) = none := by
  cases hget : l.wraps.get? (wrapKey secret n) with
  | none => rfl
  | some bytes =>
    obtain ⟨w, -, hfit⟩ := h.wraps _ (Table.get?_eq_some_iff.1 hget)
    obtain ⟨m, hkey⟩ := hfit.key
    have hthere := hfit.secret
    rw [← (wrapKey_inj hkey).1, hfree] at hthere
    cases hthere

/-- A command that makes wraps puts each under a new key and leaves the other rows as they are. -/
theorem Intact.gains_newWraps (h : l.Intact) (hfree : l.NextFree)
    (hok : l.execute c = .ok (a, l')) (hsome : c.newWraps ≠ []) :
    l.wraps.rows ⊆ l'.wraps.rows ∧ ∀ w ∈ c.newWraps, ∃ n,
      l.wraps.get? (wrapKey w.secret n) = none ∧
        l'.wraps.get? (wrapKey w.secret n) = some w.toJson := by
  have hone : ∀ w : Wrap, l.wraps.rows ⊆ (l.addWrap w).wraps.rows ∧
      l.wraps.get? (wrapKey w.secret (l.lastWrap + 1)) = none ∧
      (l.addWrap w).wraps.get? (wrapKey w.secret (l.lastWrap + 1)) = some w.toJson :=
    fun w => ⟨(gains_addWrap (hfree w.secret)).subset, hfree w.secret, l.get?_wraps_addWrap w⟩
  cases c with
  | createSecret now caller new =>
    obtain ⟨hnew, -, hl⟩ := of_createSecret_eq_ok (of_changed_eq_ok hok)
    have hfresh := h.get?_wrapKey hnew
    let stored : Ledger := { l with
      secrets := l.secrets.insert (utf8 new.name)
        (Secret.toJson ⟨new.name, new.payload, caller.name, now.1⟩) }
    let forSuper : Wrap := ⟨new.name, .group superGroup, new.superKey, new.path, now.1⟩
    have hsuper : stored.wraps.Gains (stored.addWrap forSuper).wraps
        (wrapKey new.name (stored.lastWrap + 1)) forSuper.toJson := gains_addWrap (hfresh _)
    cases hkey : given new.creatorKey with
    | none =>
      simp only [hkey] at hl
      subst hl
      refine ⟨hsuper.subset, fun w hw => ?_⟩
      obtain rfl : w = forSuper := by simpa [Command.newWraps, hkey] using hw
      exact ⟨_, hsuper.1, get?_wraps_addWrap _ _⟩
    | some key =>
      simp only [hkey] at hl
      subst hl
      let forCreator : Wrap := ⟨new.name, .principal caller.name, key, new.path, now.1⟩
      have hcreator : (stored.addWrap forSuper).wraps.Gains
          ((stored.addWrap forSuper).addWrap forCreator).wraps
          (wrapKey new.name ((stored.addWrap forSuper).lastWrap + 1)) forCreator.toJson :=
        gains_addWrap_addWrap (by rfl) hfresh
      refine ⟨List.Subset.trans hsuper.subset hcreator.subset, fun w hw => ?_⟩
      have hcases : w = forSuper ∨ w = forCreator := by
        simpa [Command.newWraps, hkey] using hw
      rcases hcases with rfl | rfl
      · exact ⟨_, hsuper.1, Table.get?_eq_some_iff.2
          (hcreator.subset (Table.get?_eq_some_iff.1 (get?_wraps_addWrap _ _)))⟩
      · exact ⟨_, hfresh _, get?_wraps_addWrap _ _⟩
  | assignToGroup now secret group sealedKey path =>
    obtain ⟨-, -, hgrant⟩ := of_bind_eq_ok (of_changed_eq_ok hok)
    obtain ⟨-, rfl⟩ := of_grant_eq_ok hgrant
    refine ⟨(hone _).1, fun w hw => ?_⟩
    obtain rfl := List.mem_singleton.1 hw
    exact ⟨_, (hone _).2⟩
  | assignToPrincipal now secret principal sealedKey path =>
    obtain ⟨-, rfl⟩ := of_grant_eq_ok (of_changed_eq_ok hok)
    refine ⟨(hone _).1, fun w hw => ?_⟩
    obtain rfl := List.mem_singleton.1 hw
    exact ⟨_, (hone _).2⟩
  | _ => exact absurd rfl hsome

/-- **A wrap stays as long as its grant has not ended.** -/
theorem Intact.mem_wraps_of_not_ends (h : l.Intact) (hfree : l.NextFree)
    (hok : l.execute c = .ok (a, l')) (hrow : row ∈ l.wraps.rows)
    (hw : decode Wrap.layout row.2 = .ok w) (hends : ¬c.Ends w.secret w.recipient) :
    row ∈ l'.wraps.rows := by
  by_cases hnone : c.newWraps = []
  · exact (h.mem_wraps_iff_of_removes hok hnone hw).2 ⟨hrow, hends⟩
  · exact (h.gains_newWraps hfree hok hnone).1 hrow

/-- **A new wrap comes under a new key.** -/
theorem Intact.exists_row_of_mem_newWraps (h : l.Intact) (hfree : l.NextFree)
    (hok : l.execute c = .ok (a, l')) (hw : w ∈ c.newWraps) :
    ∃ n, l.wraps.get? (wrapKey w.secret n) = none ∧
      l'.wraps.get? (wrapKey w.secret n) = some w.toJson := by
  refine (h.gains_newWraps hfree hok fun hnone => ?_).2 w hw
  rw [hnone] at hw
  cases hw

end Ledger

theorem Represents.nextFree {l : Ledger} {p : PlainLedger} {count : Nat} (h : Represents l p count)
    (hcount : count + 1 < 2 ^ 64) : l.NextFree :=
  h.get?_nextWrap hcount

theorem Represents.of_execute_eq_ok {l l' : Ledger} {p : PlainLedger} {count : Nat} {c : Command}
    {a : Answer} (h : Represents l p count) (hok : l.execute c = .ok (a, l'))
    (hcount : count + c.wraps < 2 ^ 64) : ∃ p', Represents l' p' (count + c.wraps) := by
  have hattempt := (h.attempt c).2
  rw [attempt_of_ok hok] at hattempt
  exact ⟨_, hattempt hcount⟩

end Strongroom
