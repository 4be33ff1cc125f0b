import Strongroom.Proofs.Ledger.Refinement

/-!
# What operations change

The effect of the operations on the rows of the tables.  A table gains a row when there was none
under its key (`Table.Gains`); from that come the effects of creating a secret and of granting one
(`GainsSecret`, `GainsWrap`).  Two frames say what other operations leave alone: groups and who is
in them (`KeepsGroups`), and the entries that are there (`KeepsEntries`).

A wrap never takes the place of another one.  For a new secret that is so whatever its number is;
for a grant it is where the counter must not have come round (`Represents.get?_nextWrap`).
-/

namespace Strongroom

/-! ### Rows that are gained -/

/-- A table gains a row under a new key, and nothing else happens to it. -/
def Table.Gains (t t' : Table Bytes Bytes) (key row : Bytes) : Prop :=
  t.get? key = none ∧ t' = t.insert key row

theorem Table.Gains.subset {t t' : Table Bytes Bytes} {key row : Bytes} (h : t.Gains t' key row) :
    t.rows ⊆ t'.rows := by
  obtain ⟨hnew, rfl⟩ := h
  intro x hx
  exact Table.mem_rows_insert.2 (.inr ⟨hx, Table.get?_eq_none_iff.1 hnew x hx⟩)

namespace Ledger

/-- A ledger gains one secret with its wrap for the supergroup and a wrap for its creator, and
nothing else happens to its principals, groups, secrets and wraps. -/
def GainsSecret (l l' : Ledger) (creator : String) : Prop :=
  ∃ (secret : Secret) (forSuper forCreator : Wrap) (m n : UInt64) (between : Table Bytes Bytes),
    l'.principals = l.principals ∧ l'.groups = l.groups ∧
      secret.createdBy = creator ∧
      l.secrets.Gains l'.secrets (utf8 secret.name) secret.toJson ∧
      l.scanWraps (some secret.name) = .ok [] ∧
      forSuper.secret = secret.name ∧ forSuper.recipient = .group superGroup ∧
      l.wraps.Gains between (wrapKey secret.name m) forSuper.toJson ∧
      forCreator.secret = secret.name ∧ forCreator.recipient = .principal creator ∧
      between.Gains l'.wraps (wrapKey secret.name n) forCreator.toJson

/-- A ledger gains one wrap of a secret for a recipient, and nothing else happens to its principals,
groups, secrets and wraps. -/
def GainsWrap (l l' : Ledger) (secret : String) (recipient : Recipient) : Prop :=
  ∃ (wrap : Wrap) (n : UInt64),
    l'.principals = l.principals ∧ l'.groups = l.groups ∧ l'.secrets = l.secrets ∧
      wrap.secret = secret ∧ wrap.recipient = recipient ∧
      l.wraps.Gains l'.wraps (wrapKey secret n) wrap.toJson

/-- The groups stay as they are, every principal that stays is in the same group with the same
sealed group key, and every new one is in the default group. -/
def KeepsGroups (l l' : Ledger) : Prop :=
  l'.groups = l.groups ∧ ∀ name, has l'.principals name = true →
    ∃ p', l'.getPrincipal name = .ok p' ∧
      (has l.principals name = false → p'.group = defaultGroup) ∧
      ∀ p, l.getPrincipal name = .ok p →
        p'.group = p.group ∧ p'.sealedGroupKey = p.sealedGroupKey

/-- No principal and no secret goes away, and no wrap other than those of a group that does. -/
def KeepsEntries (l l' : Ledger) : Prop :=
  (∀ name, has l.principals name = true → has l'.principals name = true) ∧
    (∀ name, has l.secrets name = true → has l'.secrets name = true) ∧
    ∀ row ∈ l.wraps.rows, row ∉ l'.wraps.rows → ∃ wrap group,
      decode Wrap.layout row.2 = .ok wrap ∧ wrap.recipient = .group group ∧
        has l.groups group = true ∧ has l'.groups group = false

/-! ### Rows after an operation -/

theorem lastWrap_addWrap (l : Ledger) (w : Wrap) : (l.addWrap w).lastWrap = l.lastWrap + 1 := by
  rw [lastWrap, addWrap, Table.get?_insert, if_pos rfl]
  rfl

theorem gains_addWrap {l : Ledger} {w : Wrap}
    (hnew : l.wraps.get? (wrapKey w.secret (l.lastWrap + 1)) = none) :
    l.wraps.Gains (l.addWrap w).wraps (wrapKey w.secret (l.lastWrap + 1)) w.toJson :=
  ⟨hnew, rfl⟩

/-- A second wrap of a secret that had none. -/
theorem gains_addWrap_addWrap {l : Ledger} {w w' : Wrap} (hsame : w'.secret = w.secret)
    (hfresh : ∀ n, l.wraps.get? (wrapKey w.secret n) = none) :
    (l.addWrap w).wraps.Gains ((l.addWrap w).addWrap w').wraps
      (wrapKey w'.secret ((l.addWrap w).lastWrap + 1)) w'.toJson := by
  refine gains_addWrap ?_
  rw [lastWrap_addWrap, hsame, addWrap, Table.get?_insert, if_neg]
  · exact hfresh _
  · -- the second number is not the first one
    intro heq
    have hnumber := (wrapKey_inj heq).2
    simp at hnumber

theorem has_insert (t : Table Bytes Bytes) (n k : String) (row : Bytes) :
    has (t.insert (utf8 n) row) k = (decide (k = n) || has t k) := by
  rw [has, Table.contains, Table.get?_insert]
  by_cases hk : k = n
  · simp [hk]
  · rw [if_neg fun he => hk (utf8_inj.1 he)]
    simp [hk, has, Table.contains]

theorem has_erase (t : Table Bytes Bytes) (n k : String) :
    has (t.erase (utf8 n)) k = (decide (k ≠ n) && has t k) := by
  rw [has, Table.contains, Table.get?_erase]
  by_cases hk : k = n
  · simp [hk]
  · rw [if_neg fun he => hk (utf8_inj.1 he)]
    simp [hk, has, Table.contains]

/-! ### Operations that have succeeded -/

theorem of_removeWraps_eq_ok {l l' : Ledger} {secret : Option String} {remove : Wrap → Bool}
    {n : Nat} (h : l.removeWraps secret remove = .ok (n, l')) :
    ∃ t, l' = { l with wraps := t } := by
  rw [removeWraps] at h
  obtain ⟨wraps, -, h⟩ := of_bind_eq_ok h
  cases h
  exact ⟨_, rfl⟩

theorem of_grant_eq_ok {l l' : Ledger} {now : Timestamp} {secret : String} {recipient : Recipient}
    {sealedKey : Bytes} {path : Option String}
    (h : l.grant now secret recipient sealedKey path = .ok l') :
    l.checkRecipient recipient = .ok () ∧
      l' = l.addWrap ⟨secret, recipient, sealedKey, path, now⟩ := by
  rw [grant] at h
  obtain ⟨-, -, h⟩ := of_bind_eq_ok h
  obtain ⟨-, -, h⟩ := of_bind_eq_ok h
  obtain ⟨_, hrecipient, h⟩ := of_bind_eq_ok h
  exact ⟨hrecipient, (Except.ok.inj h).symm⟩

theorem of_revoke_eq_ok {l l' : Ledger} {secret : String} {recipient : Recipient} {n : Nat}
    (h : l.revoke secret recipient = .ok (n, l')) : ∃ t, l' = { l with wraps := t } := by
  rw [revoke] at h
  obtain ⟨-, -, h⟩ := of_bind_eq_ok h
  obtain ⟨-, -, h⟩ := of_bind_eq_ok h
  obtain ⟨⟨m, l₁⟩, hremove, h⟩ := of_bind_eq_ok h
  obtain ⟨-, -, h⟩ := of_bind_eq_ok h
  cases h
  exact of_removeWraps_eq_ok hremove

/-- What a secret is created with, once every check has been passed. -/
theorem of_createSecret_eq_ok {l l' : Ledger} {now : Timestamp} {caller : Identity}
    {new : NewSecret} (h : l.createSecret now caller new = .ok l') :
    has l.secrets new.name = false ∧
      (caller.superuser || (given new.creatorKey).isSome) = true ∧
      let stored : Ledger := { l with
        secrets := l.secrets.insert (utf8 new.name)
          (Secret.toJson ⟨new.name, new.payload, caller.name, now⟩) }
      let first := stored.addWrap ⟨new.name, .group superGroup, new.superKey, new.path, now⟩
      l' = match given new.creatorKey with
        | none => first
        | some key => first.addWrap ⟨new.name, .principal caller.name, key, new.path, now⟩ := by
  rw [createSecret] at h
  obtain ⟨-, -, h⟩ := of_bind_eq_ok h
  obtain ⟨-, -, h⟩ := of_bind_eq_ok h
  obtain ⟨-, -, h⟩ := of_bind_eq_ok h
  obtain ⟨-, -, h⟩ := of_bind_eq_ok h
  obtain ⟨_, hkey, h⟩ := of_bind_eq_ok h
  obtain ⟨_, hnew, h⟩ := of_bind_eq_ok h
  refine ⟨by simpa using of_require_eq_ok hnew, of_require_eq_ok hkey, ?_⟩
  cases hgiven : given new.creatorKey with
  | none =>
    rw [hgiven] at h
    exact (Except.ok.inj h).symm
  | some key =>
    rw [hgiven] at h
    exact (Except.ok.inj h).symm

end Ledger

namespace Represents

variable {l l' : Ledger} {p : PlainLedger} {count : Nat}

/-! ### Secrets and wraps -/

theorem scanWraps_eq_nil (h : Represents l p count) {name : String}
    (hnew : Ledger.has l.secrets name = false) :
    l.scanWraps (some name) = .ok [] ∧ ∀ n, l.wraps.get? (Ledger.wrapKey name n) = none := by
  obtain ⟨xs, hxs, hgrants⟩ := h.wraps
  have hnone : ∀ x ∈ xs, x.wrap.secret ≠ name := by
    intro x hx hsecret
    obtain ⟨e, he⟩ := find_of_mem hgrants hx
    rw [h.secrets.has_eq, NameMap.has, ← hsecret, he] at hnew
    cases hnew
  refine ⟨?_, fun n => hxs.get?_eq_none fun x hx hsecret => absurd hsecret (hnone x hx)⟩
  rw [hxs.scanWraps, List.filter_eq_nil_iff.2]
  · rfl
  · intro x hx
    simpa using hnone x hx

/-- Under the next number there is no wrap yet. -/
theorem get?_nextWrap (h : Represents l p count) (hcount : count + 1 < 2 ^ 64) (secret : String) :
    l.wraps.get? (Ledger.wrapKey secret (l.lastWrap + 1)) = none := by
  obtain ⟨xs, hxs, -⟩ := h.wraps
  have hnumber := h.toNat_nextWrap hcount
  exact hxs.get?_eq_none fun x hx _ hn => Std.lt_irrefl (hn ▸ hxs.number_lt hnumber hx)

/-- **A secret created by a caller outside the supergroup is there with two wraps.** -/
theorem gainsSecret (h : Represents l p count) {now : Timestamp} {caller : Identity}
    {new : NewSecret} (hcaller : caller.superuser = false)
    (hok : l.createSecret now caller new = .ok l') : l.GainsSecret l' caller.name := by
  obtain ⟨hnew, hkey, hl⟩ := Ledger.of_createSecret_eq_ok hok
  rw [hcaller, Bool.false_or] at hkey
  obtain ⟨key, hkey⟩ := Option.isSome_iff_exists.1 hkey
  simp only [hkey] at hl
  subst hl
  obtain ⟨hscan, hfresh⟩ := h.scanWraps_eq_nil hnew
  refine ⟨⟨new.name, new.payload, caller.name, now⟩,
    ⟨new.name, .group superGroup, new.superKey, new.path, now⟩,
    ⟨new.name, .principal caller.name, key, new.path, now⟩, _, _, _, rfl, rfl, rfl, ⟨?_, rfl⟩,
    hscan, rfl, rfl, Ledger.gains_addWrap (hfresh _), rfl, rfl,
    Ledger.gains_addWrap_addWrap rfl hfresh⟩
  exact Ledger.has_eq_false_iff.1 hnew

theorem gainsWrap (h : Represents l p count) (hcount : count + 1 < 2 ^ 64) {now : Timestamp}
    {secret principal : String} {sealedKey : Bytes} {path : Option String}
    (hok : l.assignToPrincipal now secret principal sealedKey path = .ok l') :
    Ledger.has l.principals principal = true ∧ l.GainsWrap l' secret (.principal principal) := by
  obtain ⟨hrecipient, rfl⟩ := Ledger.of_grant_eq_ok hok
  exact ⟨of_require_eq_ok hrecipient, ⟨secret, .principal principal, sealedKey, path, now⟩, _, rfl,
    rfl, rfl, rfl, rfl, Ledger.gains_addWrap (h.get?_nextWrap hcount secret)⟩

/-! ### Groups and their members -/

theorem exists_getPrincipal (h : Represents l p count) {name : String}
    (hname : Ledger.has l.principals name = true) : ∃ q, l.getPrincipal name = .ok q := by
  rw [h.principals.has_eq, NameMap.has, Option.isSome_iff_exists] at hname
  obtain ⟨q, hq⟩ := hname
  exact ⟨q, by rw [h.getPrincipal_eq, NameMap.get, hq]⟩

/-- Groups are kept if the table of groups is, and if every principal has its old row or is new and
in the default group. -/
theorem keepsGroups_of_rows (h : Represents l p count) (hgroups : l'.groups = l.groups)
    (hrows : ∀ name, Ledger.has l'.principals name = true →
      l'.principals.get? (utf8 name) = l.principals.get? (utf8 name) ∨
        Ledger.has l.principals name = false ∧
          ∃ q, l'.getPrincipal name = .ok q ∧ q.group = defaultGroup) : l.KeepsGroups l' := by
  refine ⟨hgroups, fun name hname => ?_⟩
  rcases hrows name hname with hrow | ⟨hnew, q, hq, hgroup⟩
  · have hold : Ledger.has l.principals name = true := by
      rwa [Ledger.has, Table.contains, hrow] at hname
    have hsame : l'.getPrincipal name = l.getPrincipal name := by
      rw [Ledger.getPrincipal, Ledger.getPrincipal, Ledger.row, Ledger.row, Ledger.row?,
        Ledger.row?, hrow]
    obtain ⟨q, hq⟩ := h.exists_getPrincipal hold
    refine ⟨q, hsame.trans hq, fun hnew => ?_, fun q' hq' => ?_⟩
    · rw [hold] at hnew
      cases hnew
    · rw [hq] at hq'
      cases hq'
      exact ⟨rfl, rfl⟩
  · refine ⟨q, hq, fun _ => hgroup, fun q' hq' => ?_⟩
    rw [h.principals.has_eq, NameMap.has, Option.isSome_eq_false_iff, Option.isNone_iff_eq_none]
      at hnew
    rw [h.getPrincipal_eq, NameMap.get, hnew] at hq'
    cases hq'

theorem keepsGroups_of_eq (h : Represents l p count) (hprincipals : l'.principals = l.principals)
    (hgroups : l'.groups = l.groups) : l.KeepsGroups l' := by
  refine h.keepsGroups_of_rows hgroups fun name _ => .inl ?_
  rw [hprincipals]

theorem keepsGroups_registerPrincipal (h : Represents l p count) {now : Moment}
    {new : NewPrincipal} (hok : l.registerPrincipal now.1 new = .ok l') : l.KeepsGroups l' := by
  rw [Ledger.registerPrincipal] at hok
  obtain ⟨-, -, hok⟩ := of_bind_eq_ok hok
  obtain ⟨-, -, hok⟩ := of_bind_eq_ok hok
  obtain ⟨-, -, hok⟩ := of_bind_eq_ok hok
  obtain ⟨_, hnew, hok⟩ := of_bind_eq_ok hok
  obtain rfl := Except.ok.inj hok
  have hnew : Ledger.has l.principals new.name = false := by simpa using of_require_eq_ok hnew
  refine h.keepsGroups_of_rows rfl fun name _ => ?_
  by_cases hname : name = new.name
  · subst hname
    let added : Principal :=
      ⟨new.name, new.kind, new.publicKey, defaultGroup, none, new.passwordHash, now.1⟩
    have hrow : Ledger.decode Principal.layout added.toJson = .ok added :=
      Principal.decode_toJson now.2
    refine .inr ⟨hnew, added, ?_, rfl⟩
    rw [Ledger.getPrincipal, Ledger.row, Ledger.row?, Table.get?_insert, if_pos rfl]
    show (Ledger.decode Principal.layout added.toJson).map some >>= _ = _
    rw [hrow]
    rfl
  · left
    rw [Table.get?_insert, if_neg fun he => hname (utf8_inj.1 he)]

theorem keepsGroups_deletePrincipal (h : Represents l p count) {name : String}
    (hok : l.deletePrincipal name = .ok l') : l.KeepsGroups l' := by
  rw [Ledger.deletePrincipal] at hok
  obtain ⟨-, -, hok⟩ := of_bind_eq_ok hok
  obtain ⟨⟨n, l₁⟩, hremove, hok⟩ := of_bind_eq_ok hok
  obtain rfl := Except.ok.inj hok
  obtain ⟨t, rfl⟩ := Ledger.of_removeWraps_eq_ok hremove
  refine h.keepsGroups_of_rows rfl fun k hk => .inl ?_
  rw [Ledger.has_erase, Bool.and_eq_true, decide_eq_true_eq] at hk
  rw [Table.get?_erase, if_neg fun he => hk.1 (utf8_inj.1 he)]

/-! ### What goes away -/

theorem keepsEntries_of_subset
    (hprincipals : ∀ name, Ledger.has l.principals name = true →
      Ledger.has l'.principals name = true)
    (hsecrets : ∀ name, Ledger.has l.secrets name = true → Ledger.has l'.secrets name = true)
    (hwraps : l.wraps.rows ⊆ l'.wraps.rows) : l.KeepsEntries l' :=
  ⟨hprincipals, hsecrets, fun _ hrow hgone => absurd (hwraps hrow) hgone⟩

theorem keepsEntries_createSecret (h : Represents l p count) {now : Timestamp}
    {caller : Identity} {new : NewSecret} (hok : l.createSecret now caller new = .ok l') :
    l.KeepsEntries l' := by
  obtain ⟨hnew, -, hl⟩ := Ledger.of_createSecret_eq_ok hok
  obtain ⟨-, hfresh⟩ := h.scanWraps_eq_nil hnew
  have hstored : ∀ name row, Ledger.has l.secrets name = true →
      Ledger.has (l.secrets.insert (utf8 new.name) row) name = true := by
    intro name row hname
    rw [Ledger.has_insert, hname, Bool.or_true]
  split at hl
  · subst hl
    exact keepsEntries_of_subset (fun _ hk => hk) (fun _ hk => hstored _ _ hk)
      (Ledger.gains_addWrap (hfresh _)).subset
  · subst hl
    refine keepsEntries_of_subset (fun _ hk => hk) (fun _ hk => hstored _ _ hk) ?_
    refine List.Subset.trans ?_ (Ledger.gains_addWrap_addWrap (by rfl) hfresh).subset
    exact (Ledger.gains_addWrap (hfresh _)).subset

/-- Deleting a group removes no wraps but those for the group. -/
theorem keepsEntries_deleteGroup (h : Represents l p count) {name : String}
    (hok : l.deleteGroup name = .ok l') : l.KeepsEntries l' := by
  rw [Ledger.deleteGroup] at hok
  obtain ⟨-, -, hok⟩ := of_bind_eq_ok hok
  obtain ⟨_, hthere, hok⟩ := of_bind_eq_ok hok
  obtain ⟨xs, hxs, -⟩ := h.wraps
  have herased : HoldsWraps { l with groups := l.groups.erase (utf8 name) }.wraps count xs := hxs
  obtain ⟨t, ht, hholds⟩ := herased.removeWraps none fun wrap => wrap.recipient = .group name
  simp only [ht, bind, Except.bind, h.principals.all_eq_list fun _ _ _ hs => hs.1] at hok
  obtain rfl := Except.ok.inj hok
  refine ⟨fun k hk => ?_, fun k hk => hk, fun row hrow hgone => ?_⟩
  · rw [(h.moveMembers name).has_eq, NameMap.has, NameMap.find_map, Option.isSome_map]
    rwa [h.principals.has_eq] at hk
  · rw [hxs.rows] at hrow
    obtain ⟨x, hx, rfl⟩ := List.mem_map.1 hrow
    refine ⟨x.wrap, name, hxs.decode hx, ?_, of_require_eq_ok hthere, ?_⟩
    · by_contra hother
      refine hgone (hholds.rows ▸ List.mem_map_of_mem (List.mem_filter.2 ⟨hx, ?_⟩))
      simpa using hother
    · rw [Ledger.has_erase]
      simp

end Represents

end Strongroom
