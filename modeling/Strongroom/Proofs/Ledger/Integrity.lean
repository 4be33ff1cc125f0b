import Strongroom.Proofs.Ledger.SoundRows

/-!
# Referential integrity

The four tables of records refer to one another by name, and nothing but the operations keeps these
references whole.  A ledger is intact (`Ledger.Intact`) if every record stands under its own name,
every wrap is of a secret that is there, and every wrap for a group is for the supergroup or for a
group that is there.  Each operation keeps a ledger intact, whatever its arguments and whoever calls
it (`Intact.execute`): what creates a wrap checks both ends of the reference first, and what deletes
a secret or a group deletes its wraps in the same step.  So every ledger that a run can reach from
the empty one is intact (`intact_run`).

There is no proviso about the counter of wraps.  Even a number that comes round takes the place of
a wrap of the same secret, so the references stay whole.
-/

namespace Strongroom

namespace Ledger

/-- Whom a wrap may be for: a principal, the supergroup or a group that is there, but never the
default group. -/
def Addressable (groups : Table Bytes Bytes) : Recipient → Prop
  | .principal _ => True
  | .group name => name ≠ defaultGroup ∧ (name = superGroup ∨ has groups name = true)

/-- A secret stands under its own name, which is one that a secret may be created under. -/
structure SecretFits (key : Bytes) (s : Secret) : Prop where
  key : key = utf8 s.name
  name : checkName "secret" s.name = .ok ()
  unreserved : isReserved s.name = false

/-- A wrap stands under the name of a secret that is there, and for whom it may be. -/
structure WrapFits (groups secrets : Table Bytes Bytes) (key : Bytes) (w : Wrap) : Prop where
  key : ∃ n, key = wrapKey w.secret n
  secret : has secrets w.secret = true
  recipient : Addressable groups w.recipient

theorem WrapFits.standsAt {groups secrets : Table Bytes Bytes} {key : Bytes} {w : Wrap}
    (h : WrapFits groups secrets key w) : w.standsAt key := by
  obtain ⟨n, rfl⟩ := h.key
  exact w.standsAt_wrapKey n

/-- **Referential integrity**: every row can be read, stands under the name of its record, and
refers only to what is there. -/
structure Intact (l : Ledger) : Prop where
  principals : SoundRows Principal.layout (fun key p => key = utf8 p.name) l.principals
  groups : SoundRows Group.layout (fun key g => key = utf8 g.name) l.groups
  secrets : SoundRows Secret.layout SecretFits l.secrets
  wraps : SoundRows Wrap.layout (WrapFits l.groups l.secrets) l.wraps

/-! ### What is there stays there -/

theorem has_insert_of_has {t : Table Bytes Bytes} {n k : String} {row : Bytes}
    (h : has t k = true) : has (t.insert (utf8 n) row) k = true := by
  rw [has_insert, h, Bool.or_true]

theorem has_addRow_of_has {t : Table Bytes Bytes} {n k : String} {row : Bytes}
    (h : has t k = true) : has (addRow t n row) k = true := by
  rw [addRow]
  split
  · exact h
  · exact has_insert_of_has h

theorem has_addRow_self (t : Table Bytes Bytes) (name : String) (row : Bytes) :
    has (addRow t name row) name = true := by
  rw [addRow]
  split
  · next hthere => exact hthere
  · rw [has_insert, decide_eq_true rfl, Bool.true_or]

theorem Addressable.mono {groups groups' : Table Bytes Bytes} {r : Recipient}
    (h : Addressable groups r)
    (hgroups : ∀ name, has groups name = true → has groups' name = true) :
    Addressable groups' r := by
  cases r with
  | principal name => trivial
  | group name => exact ⟨h.1, h.2.imp_right (hgroups name)⟩

theorem WrapFits.mono {groups groups' secrets secrets' : Table Bytes Bytes} {key : Bytes} {w : Wrap}
    (h : WrapFits groups secrets key w)
    (hgroups : ∀ name, has groups name = true → has groups' name = true)
    (hsecrets : ∀ name, has secrets name = true → has secrets' name = true) :
    WrapFits groups' secrets' key w :=
  ⟨h.key, hsecrets _ h.secret, h.recipient.mono hgroups⟩

/-- Principals that are moved to the default group are written back under their own names. -/
theorem soundRows_moveMembers {ps : List Principal} {t : Table Bytes Bytes}
    (h : SoundRows Principal.layout (fun key p => key = utf8 p.name) t)
    (hvalid : ∀ p ∈ ps, p.createdAt.IsValid) :
    SoundRows Principal.layout (fun key p => key = utf8 p.name)
      (ps.foldl (fun table p => table.insert (utf8 p.name) (inDefaultGroup p).toJson) t) := by
  induction ps generalizing t with
  | nil => exact h
  | cons p ps ih =>
    have hp : (inDefaultGroup p).createdAt.IsValid := hvalid p (by simp)
    exact ih (h.insert (Principal.decode_toJson hp) rfl) fun q hq => hvalid q (by simp [hq])

/-- What a group is created with, once every check has been passed. -/
theorem of_createGroup_eq_ok {l l' : Ledger} {now : Timestamp} {name : String} {kind : Role}
    {publicKey sealedPrivateKey : Bytes}
    (h : l.createGroup now name kind publicKey sealedPrivateKey = .ok l') :
    isReserved name = false ∧ has l.groups name = false ∧
      let group : Group := ⟨name, kind, publicKey, sealedPrivateKey, false, now⟩
      l' = { l with groups := l.groups.insert (utf8 name) group.toJson } := by
  rw [createGroup] at h
  obtain ⟨-, -, h⟩ := of_bind_eq_ok h
  obtain ⟨-, -, h⟩ := of_bind_eq_ok h
  obtain ⟨-, -, h⟩ := of_bind_eq_ok h
  obtain ⟨_, hnew, h⟩ := of_bind_eq_ok h
  have hfree : isReserved name = false ∧ has l.groups name = false := by
    simpa using of_require_eq_ok hnew
  exact ⟨hfree.1, hfree.2, (Except.ok.inj h).symm⟩

/-! ### One operation -/

namespace Intact

variable {l l' : Ledger}

theorem empty : Ledger.empty.Intact :=
  ⟨.empty, .empty, .empty, .empty⟩

/-- A wrap between a secret and a recipient that are there. -/
theorem addWrap (h : l.Intact) {w : Wrap} (hvalid : w.createdAt.IsValid)
    (hsecret : has l.secrets w.secret = true) (hrecipient : Addressable l.groups w.recipient) :
    (l.addWrap w).Intact :=
  { h with
    wraps := h.wraps.insert (Wrap.decode_toJson hvalid) ⟨⟨_, rfl⟩, hsecret, hrecipient⟩ }

/-- A ledger of which some wraps are left. -/
theorem removeWraps (h : l.Intact) {secret : Option String} {remove : Wrap → Bool} {n : Nat}
    (hok : l.removeWraps secret remove = .ok (n, l')) : l'.Intact := by
  obtain ⟨t, rfl, ht⟩ := of_removeWraps_of_sound h.wraps (fun _ _ hfit => hfit.standsAt) hok
  exact { h with wraps := ht.imp fun _ _ hfit => hfit.1 }

theorem bootstrap (h : l.Intact) {now : Moment} {setup : Bootstrap}
    (hok : l.bootstrap now.1 setup = .ok l') : l'.Intact := by
  rw [Ledger.bootstrap] at hok
  obtain ⟨-, -, hok⟩ := of_bind_eq_ok hok
  obtain ⟨-, -, hok⟩ := of_bind_eq_ok hok
  let default : Group := ⟨defaultGroup, .client, [], [], true, now.1⟩
  let super : Group :=
    ⟨superGroup, .admin, setup.superPublicKey, setup.superSealedPrivateKey, true, now.1⟩
  have hbuiltin : (l.addBuiltinGroups now.1 setup).Intact :=
    { h with
      groups := (h.groups.addRow (Group.decode_toJson (g := default) now.2) rfl).addRow
        (Group.decode_toJson (g := super) now.2) rfl
      wraps := h.wraps.imp fun _ _ hfit =>
        hfit.mono (fun _ hg => has_addRow_of_has (has_addRow_of_has hg)) fun _ hs => hs }
  cases hadmin : setup.admin with
  | none =>
    rw [hadmin] at hok
    cases hok
    exact hbuiltin
  | some admin =>
    rw [hadmin] at hok
    replace hok : (l.addBuiltinGroups now.1 setup).addAdmin now.1 admin = .ok l' := hok
    rw [addAdmin] at hok
    obtain ⟨-, -, hok⟩ := of_bind_eq_ok hok
    obtain ⟨-, -, hok⟩ := of_bind_eq_ok hok
    cases hok
    exact { hbuiltin with
      principals := hbuiltin.principals.addRow (Principal.decode_toJson now.2) rfl }

theorem registerPrincipal (h : l.Intact) {now : Moment} {new : NewPrincipal}
    (hok : l.registerPrincipal now.1 new = .ok l') : l'.Intact := by
  rw [Ledger.registerPrincipal] at hok
  obtain ⟨-, -, hok⟩ := of_bind_eq_ok hok
  obtain ⟨-, -, hok⟩ := of_bind_eq_ok hok
  obtain ⟨-, -, hok⟩ := of_bind_eq_ok hok
  obtain ⟨-, -, hok⟩ := of_bind_eq_ok hok
  cases hok
  exact { h with principals := h.principals.insert (Principal.decode_toJson now.2) rfl }

theorem createGroup (h : l.Intact) {now : Moment} {name : String} {kind : Role}
    {publicKey sealedPrivateKey : Bytes}
    (hok : l.createGroup now.1 name kind publicKey sealedPrivateKey = .ok l') : l'.Intact := by
  obtain ⟨-, -, rfl⟩ := of_createGroup_eq_ok hok
  exact { h with
    groups := h.groups.insert (Group.decode_toJson now.2) rfl
    wraps := h.wraps.imp fun _ _ hfit => hfit.mono (fun _ => has_insert_of_has) fun _ hs => hs }

theorem createSecret (h : l.Intact) {now : Moment} {caller : Identity} {new : NewSecret}
    (hok : l.createSecret now.1 caller new = .ok l') : l'.Intact := by
  rw [Ledger.createSecret] at hok
  obtain ⟨⟨⟩, hname, hok⟩ := of_bind_eq_ok hok
  obtain ⟨_, hfree, hok⟩ := of_bind_eq_ok hok
  obtain ⟨-, -, hok⟩ := of_bind_eq_ok hok
  obtain ⟨-, -, hok⟩ := of_bind_eq_ok hok
  obtain ⟨-, -, hok⟩ := of_bind_eq_ok hok
  obtain ⟨-, -, hok⟩ := of_bind_eq_ok hok
  let secret : Secret := ⟨new.name, new.payload, caller.name, now.1⟩
  let stored : Ledger := { l with secrets := l.secrets.insert (utf8 new.name) secret.toJson }
  have hthere : has stored.secrets new.name = true := by
    simp [stored, has_insert]
  have hstored : stored.Intact :=
    { h with
      secrets := h.secrets.insert (Secret.decode_toJson now.2)
        ⟨rfl, hname, by simpa using of_require_eq_ok hfree⟩
      wraps := h.wraps.imp fun _ _ hfit => hfit.mono (fun _ hg => hg) fun _ => has_insert_of_has }
  let forSuper : Wrap := ⟨new.name, .group superGroup, new.superKey, new.path, now.1⟩
  have hsuper : (stored.addWrap forSuper).Intact :=
    hstored.addWrap now.2 hthere ⟨by decide, .inl rfl⟩
  cases hkey : given new.creatorKey with
  | none =>
    rw [hkey] at hok
    cases hok
    exact hsuper
  | some key =>
    rw [hkey] at hok
    cases hok
    exact hsuper.addWrap now.2 hthere trivial

theorem grant (h : l.Intact) {now : Moment} {secret : String} {recipient : Recipient}
    {sealedKey : Bytes} {path : Option String} (hrecipient : recipient ≠ .group defaultGroup)
    (hok : l.grant now.1 secret recipient sealedKey path = .ok l') : l'.Intact := by
  rw [Ledger.grant] at hok
  obtain ⟨-, -, hok⟩ := of_bind_eq_ok hok
  obtain ⟨_, hsecret, hok⟩ := of_bind_eq_ok hok
  obtain ⟨_, hthere, hok⟩ := of_bind_eq_ok hok
  cases hok
  refine h.addWrap now.2 (of_require_eq_ok hsecret) ?_
  cases recipient with
  | principal name => trivial
  | group name => exact ⟨fun hname => hrecipient (hname ▸ rfl), .inr (of_require_eq_ok hthere)⟩

theorem assignToGroup (h : l.Intact) {now : Moment} {secret group : String} {sealedKey : Bytes}
    {path : Option String} (hok : l.assignToGroup now.1 secret group sealedKey path = .ok l') :
    l'.Intact := by
  rw [Ledger.assignToGroup] at hok
  obtain ⟨_, hgroup, hok⟩ := of_bind_eq_ok hok
  refine h.grant (fun heq => ?_) hok
  have hne : group ≠ defaultGroup := by simpa using of_require_eq_ok hgroup
  exact hne (Recipient.group.inj heq)

theorem assignToPrincipal (h : l.Intact) {now : Moment} {secret principal : String}
    {sealedKey : Bytes} {path : Option String}
    (hok : l.assignToPrincipal now.1 secret principal sealedKey path = .ok l') : l'.Intact :=
  h.grant (by simp) hok

theorem revoke (h : l.Intact) {secret : String} {recipient : Recipient} {n : Nat}
    (hok : l.revoke secret recipient = .ok (n, l')) : l'.Intact := by
  rw [Ledger.revoke] at hok
  obtain ⟨-, -, hok⟩ := of_bind_eq_ok hok
  obtain ⟨-, -, hok⟩ := of_bind_eq_ok hok
  obtain ⟨⟨m, l₁⟩, hremove, hok⟩ := of_bind_eq_ok hok
  obtain ⟨-, -, hok⟩ := of_bind_eq_ok hok
  cases hok
  exact h.removeWraps hremove

theorem revokeFromGroup (h : l.Intact) {secret group : String} {n : Nat}
    (hok : l.revokeFromGroup secret group = .ok (n, l')) : l'.Intact := by
  rw [Ledger.revokeFromGroup] at hok
  obtain ⟨-, -, hok⟩ := of_bind_eq_ok hok
  exact h.revoke hok

/-- The wraps of a secret go in the same step as the secret. -/
theorem deleteSecret (h : l.Intact) {name : String} (hok : l.deleteSecret name = .ok l') :
    l'.Intact := by
  rw [Ledger.deleteSecret] at hok
  obtain ⟨-, -, hok⟩ := of_bind_eq_ok hok
  obtain ⟨-, -, hok⟩ := of_bind_eq_ok hok
  obtain ⟨⟨n, l₁⟩, hremove, hok⟩ := of_bind_eq_ok hok
  cases hok
  obtain ⟨t, rfl, ht⟩ := of_removeWraps_of_sound h.wraps (fun _ _ hfit => hfit.standsAt) hremove
  refine { h with
    secrets := h.secrets.erase _
    wraps := ht.imp fun key w hfit => ⟨hfit.1.key, ?_, hfit.1.recipient⟩ }
  have hother : w.secret ≠ name := by simpa using hfit.2
  rw [has_erase, hfit.1.secret]
  simp [hother]

/-- The wraps for a group go in the same step as the group. -/
theorem deleteGroup (h : l.Intact) {name : String} (hok : l.deleteGroup name = .ok l') :
    l'.Intact := by
  rw [Ledger.deleteGroup] at hok
  obtain ⟨-, -, hok⟩ := of_bind_eq_ok hok
  obtain ⟨-, -, hok⟩ := of_bind_eq_ok hok
  obtain ⟨⟨n, l₁⟩, hremove, hok⟩ := of_bind_eq_ok hok
  obtain ⟨principals, hall, hok⟩ := of_bind_eq_ok hok
  cases hok
  obtain ⟨t, rfl, ht⟩ := of_removeWraps_of_sound (l := { l with groups := l.groups.erase _ })
    h.wraps (fun _ _ hfit => hfit.standsAt) hremove
  refine ⟨?_, h.groups.erase _, h.secrets, ht.imp fun key w hfit =>
    ⟨hfit.1.key, hfit.1.secret, ?_⟩⟩
  · refine soundRows_moveMembers h.principals fun p hp => ?_
    obtain ⟨row, -, hrow⟩ := (mem_of_all_eq_ok hall).1 (List.mem_of_mem_filter hp)
    exact Principal.isValid_of_decode hrow
  · have hrecipient := hfit.1.recipient
    have hother : w.recipient ≠ .group name := by simpa using hfit.2
    cases hw : w.recipient with
    | principal _ => trivial
    | group group =>
      rw [hw] at hrecipient hother
      have hne : group ≠ name := fun heq => hother (heq ▸ rfl)
      refine ⟨hrecipient.1, hrecipient.2.imp_right fun hthere => ?_⟩
      rw [has_erase, hthere]
      simp [hne]

theorem reassignPrincipal (h : l.Intact) {principal group : String} {sealedGroupKey : Option Bytes}
    (hok : l.reassignPrincipal principal group sealedGroupKey = .ok l') : l'.Intact := by
  rw [Ledger.reassignPrincipal] at hok
  obtain ⟨-, -, hok⟩ := of_bind_eq_ok hok
  obtain ⟨-, -, hok⟩ := of_bind_eq_ok hok
  obtain ⟨p, hp, hok⟩ := of_bind_eq_ok hok
  cases hok
  obtain ⟨row, -, hrow⟩ := exists_of_row_eq_ok hp
  let moved : Principal := { p with
    group, sealedGroupKey := if group = defaultGroup then none else given sealedGroupKey }
  have hvalid : p.createdAt.IsValid := Principal.isValid_of_decode hrow
  have hname : utf8 principal = utf8 p.name := h.principals.of_row_eq_ok hp
  exact { h with
    principals := h.principals.insert (Principal.decode_toJson (p := moved) hvalid) hname }

theorem deletePrincipal (h : l.Intact) {name : String} (hok : l.deletePrincipal name = .ok l') :
    l'.Intact := by
  rw [Ledger.deletePrincipal] at hok
  obtain ⟨-, -, hok⟩ := of_bind_eq_ok hok
  obtain ⟨⟨n, l₁⟩, hremove, hok⟩ := of_bind_eq_ok hok
  cases hok
  have herased : Intact { l with principals := l.principals.erase (utf8 name) } :=
    { h with principals := h.principals.erase _ }
  exact herased.removeWraps hremove

/-- **Every command keeps a ledger intact.** -/
theorem execute (h : l.Intact) {c : Command} {a : Answer} (hok : l.execute c = .ok (a, l')) :
    l'.Intact := by
  cases c with
  | bootstrap now setup => exact h.bootstrap (of_changed_eq_ok hok)
  | registerPrincipal now new => exact h.registerPrincipal (of_changed_eq_ok hok)
  | createGroup now name kind publicKey sealedPrivateKey =>
    exact h.createGroup (of_changed_eq_ok hok)
  | deleteGroup name => exact h.deleteGroup (of_changed_eq_ok hok)
  | createSecret now caller new => exact h.createSecret (of_changed_eq_ok hok)
  | assignToGroup now secret group sealedKey path => exact h.assignToGroup (of_changed_eq_ok hok)
  | assignToPrincipal now secret principal sealedKey path =>
    exact h.assignToPrincipal (of_changed_eq_ok hok)
  | revokeFromGroup secret group =>
    obtain ⟨n, hok⟩ := of_counted_eq_ok hok
    exact h.revokeFromGroup hok
  | revokeFromPrincipal secret principal =>
    obtain ⟨n, hok⟩ := of_counted_eq_ok hok
    exact h.revoke hok
  | deleteSecret name => exact h.deleteSecret (of_changed_eq_ok hok)
  | reassignPrincipal principal group sealedGroupKey =>
    exact h.reassignPrincipal (of_changed_eq_ok hok)
  | deletePrincipal name => exact h.deletePrincipal (of_changed_eq_ok hok)
  | isInitialized | getPrincipal | lookup | getGroup | listGroups | fetchAccessible | fetchSecret
  | canRead | listSecrets => exact of_shown_eq_ok hok ▸ h

/-! ### What integrity is good for -/

/-- Every wrap that a scan finds leads to its secret. -/
theorem accessThrough_of_scanWraps (h : l.Intact) {secret : Option String}
    {ws : List (Bytes × Wrap)} (hws : l.scanWraps secret = .ok ws) {x : Bytes × Wrap}
    (hx : x ∈ ws) : ∃ a, l.accessThrough x.2 = .ok (some a) :=
  exists_accessThrough h.secrets (fits_of_mem_scanWraps h.wraps hws hx).secret

/-- No wrap waits for a group that is still to be created. -/
theorem scanWraps_of_createGroup (h : l.Intact) {now : Timestamp} {name : String} {kind : Role}
    {publicKey sealedPrivateKey : Bytes}
    (hok : l.createGroup now name kind publicKey sealedPrivateKey = .ok l') :
    ∃ ws, l'.scanWraps none = .ok ws ∧ ∀ x ∈ ws, x.2.recipient ≠ .group name := by
  obtain ⟨hfree, hnew, hl'⟩ := of_createGroup_eq_ok hok
  have hwraps : SoundRows Wrap.layout (WrapFits l.groups l.secrets) l'.wraps := by
    rw [hl']
    exact h.wraps
  obtain ⟨ws, hws⟩ := exists_scanWraps hwraps none
  refine ⟨ws, hws, fun x hx hrecipient => ?_⟩
  have haddressed := (fits_of_mem_scanWraps hwraps hws hx).recipient
  rw [hrecipient] at haddressed
  rcases haddressed.2 with rfl | hthere
  · exact absurd hfree (by decide)
  · rw [hnew] at hthere
    cases hthere

end Intact

/-! ### Runs -/

/-- **Every ledger that a run can reach is intact.** -/
theorem intact_run {l : Ledger} (h : l.Intact) (cs : List Command) :
    (run Ledger.execute l cs).2.Intact := by
  induction cs generalizing l with
  | nil => exact h
  | cons c cs ih =>
    rw [run_cons]
    refine ih ?_
    cases hc : l.execute c with
    | ok x => exact attempt_of_ok hc ▸ h.execute hc
    | error e => exact attempt_of_error hc ▸ h

/-- **Referential integrity of every reachable ledger.**  After any sequence of commands the ledger
is intact; so a scan for wraps succeeds and each wrap that it finds leads to a secret, and a group
that is created, under whatever name, starts without wraps. -/
theorem referential_integrity (cs : List Command) :
    let l := (run Ledger.execute .empty cs).2
    l.Intact ∧
    (∀ secret, ∃ ws, l.scanWraps secret = .ok ws ∧
      ∀ x ∈ ws, ∃ a, l.accessThrough x.2 = .ok (some a)) ∧
    ∀ (now : Timestamp) (name : String) (kind : Role) (publicKey sealedPrivateKey : Bytes)
      (l' : Ledger), l.createGroup now name kind publicKey sealedPrivateKey = .ok l' →
      ∃ ws, l'.scanWraps none = .ok ws ∧ ∀ x ∈ ws, x.2.recipient ≠ .group name := by
  intro l
  have h : l.Intact := intact_run .empty cs
  refine ⟨h, fun secret => ?_, fun _ _ _ _ _ _ hok => h.scanWraps_of_createGroup hok⟩
  obtain ⟨ws, hws⟩ := exists_scanWraps h.wraps secret
  exact ⟨ws, hws, fun x hx => h.accessThrough_of_scanWraps hws hx⟩

end Ledger

end Strongroom
