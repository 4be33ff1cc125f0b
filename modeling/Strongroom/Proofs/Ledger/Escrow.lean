import Strongroom.Proofs.Ledger.Readable

/-!
# Escrow

A secret is created with a grant to the supergroup, and this grant is the first that it has.  It
stays the first as long as the secret is there: later grants go behind it, and nothing takes a grant
to the supergroup away.  A revocation from the supergroup is refused, the supergroup cannot be
deleted, and a principal of that name is another recipient than the group.

What a command can do to the secrets of the plain ledger is said once
(`PlainLedger.SecretsAfter`): it leaves them, creates or deletes one, adds a grant at the end, or
drops the grants to a recipient other than the supergroup.  The escrow is followed through these
cases and nothing behind them looks at commands again.  By the refinement the ledger shows the
escrow in all that can be read from it (`escrow_is_permanent`).
-/

namespace Strongroom

/-! ### Creation and deletion in a history -/

/-- The secret that a command creates when it succeeds. -/
def Command.Creates (c : Command) (new : NewSecret) : Prop :=
  match c with
  | .createSecret _ _ n => n = new
  | _ => False

/-- The secret that a command deletes when it succeeds. -/
def Command.Deletes (c : Command) (secret : String) : Prop :=
  match c with
  | .deleteSecret s => s = secret
  | _ => False

/-- A command that neither creates nor deletes a secret, whatever it does to its grants. -/
def Command.KeepsNames : Command → Prop
  | .createSecret .. | .deleteSecret _ => False
  | _ => True

theorem Command.KeepsNames.not_creates {c : Command} (h : c.KeepsNames) (new : NewSecret) :
    ¬ c.Creates new := by
  cases c with
  | createSecret => exact h.elim
  | _ => exact id

theorem Command.KeepsNames.not_deletes {c : Command} (h : c.KeepsNames) (secret : String) :
    ¬ c.Deletes secret := by
  cases c with
  | deleteSecret => exact h.elim
  | _ => exact id

namespace Event

/-- The event is the successful creation of a secret. -/
def Creates (e : Event) (new : NewSecret) : Prop :=
  e.Succeeds ∧ e.command.Creates new

/-- The event is the successful deletion of a secret. -/
def Deletes (e : Event) (secret : String) : Prop :=
  e.Succeeds ∧ e.command.Deletes secret

end Event

/-- A history has the creation of a secret that has not been deleted since. -/
def Created (es : List Event) (new : NewSecret) : Prop :=
  Standing (fun e => e.Creates new) (fun e => e.Deletes new.name) es

theorem created_concat {es : List Event} {e : Event} {new : NewSecret} :
    Created (es ++ [e]) new ↔ e.Creates new ∨ Created es new ∧ ¬ e.Deletes new.name :=
  standing_concat

/-! ### The first grant -/

/-- What the supergroup gets of a secret from its creation on. -/
def NewSecret.escrow (new : NewSecret) : AccessibleSecret :=
  ⟨new.name, new.payload, new.superKey, new.path, .group superGroup⟩

/-- A member of the supergroup can open what is granted to the supergroup. -/
theorem Principal.opens_superGroup {p : Principal} (hp : p.group = superGroup) :
    p.opens (.group superGroup) = true :=
  Principal.opens_iff.2 (.inr ⟨by rw [hp], by rw [hp]; decide⟩)

namespace PlainSecret

variable {e : PlainSecret} {new : NewSecret}

/-- A secret has the payload that it was created with, and its first grant is the one to the
supergroup that was made then. -/
def Escrows (e : PlainSecret) (new : NewSecret) : Prop :=
  e.payload = new.payload ∧
    e.grants.head? = some ⟨.group superGroup, new.superKey, new.path⟩

theorem Escrows.add (h : e.Escrows new) (g : Grant) : (e.add g).Escrows new := by
  obtain ⟨hpayload, hfirst⟩ := h
  exact ⟨hpayload, by rw [PlainSecret.add, List.head?_append, hfirst, Option.some_or]⟩

theorem Escrows.drop (h : e.Escrows new) {r : Recipient} (hr : r ≠ .group superGroup) :
    (e.drop r).Escrows new := by
  obtain ⟨hpayload, hfirst⟩ := h
  obtain ⟨gs, hgrants⟩ := List.head?_eq_some_iff.1 hfirst
  refine ⟨hpayload, ?_⟩
  rw [PlainSecret.drop, hgrants, List.filter_cons_of_pos (by simpa using hr.symm), List.head?_cons]

theorem Escrows.mem (h : e.Escrows new) :
    (⟨.group superGroup, new.superKey, new.path⟩ : Grant) ∈ e.grants :=
  List.mem_of_head? h.2

/-- A member of the supergroup gets what the escrow holds. -/
theorem Escrows.mem_access (h : e.Escrows new) {p : Principal} (hp : p.group = superGroup) :
    new.escrow ∈ e.access new.name p := by
  rw [NewSecret.escrow, ← h.1]
  exact List.mem_map.2 ⟨_, List.mem_filter.2 ⟨h.mem, Principal.opens_superGroup hp⟩, rfl⟩

end PlainSecret

/-! ### What a command does to the secrets -/

namespace PlainLedger

variable {l l' : PlainLedger} {c : Command}

/-- What can become of the secrets when a command succeeds. -/
inductive SecretsAfter (l : PlainLedger) : Command → NameMap PlainSecret → Prop where
  /-- They stay as they are. -/
  | keeps {c : Command} (hc : c.KeepsNames) : SecretsAfter l c l.secrets
  /-- A secret is created under a name that was not in use. -/
  | creates (now : Moment) (caller : Identity) (new : NewSecret) (e : PlainSecret)
      (hnew : l.secrets.find new.name = none) (h : e.Escrows new) :
      SecretsAfter l (.createSecret now caller new) (l.secrets.set new.name e)
  /-- A secret is granted once more. -/
  | grants {c : Command} (hc : c.KeepsNames) {s : String} {e : PlainSecret}
      (h : l.secrets.find s = some e) (g : Grant) : SecretsAfter l c (l.secrets.set s (e.add g))
  /-- The grants of a secret to a recipient other than the supergroup are dropped. -/
  | revokes {c : Command} (hc : c.KeepsNames) {s : String} {e : PlainSecret}
      (h : l.secrets.find s = some e) {r : Recipient} (hr : r ≠ .group superGroup) :
      SecretsAfter l c (l.secrets.set s (e.drop r))
  /-- The grants of all secrets to a recipient other than the supergroup are dropped. -/
  | drops {c : Command} (hc : c.KeepsNames) {r : Recipient} (hr : r ≠ .group superGroup) :
      SecretsAfter l c (l.secrets.map (·.drop r))
  /-- A secret is deleted. -/
  | deletes (s : String) : SecretsAfter l (.deleteSecret s) (l.secrets.erase s)

theorem secrets_createSecret (now : Moment) {caller : Identity} {new : NewSecret}
    (h : l.createSecret caller new = .ok l') :
    l.SecretsAfter (.createSecret now caller new) l'.secrets := by
  obtain ⟨hnew, -, rfl⟩ := of_createSecret_eq_ok h
  exact .creates now caller new _ hnew ⟨rfl, rfl⟩

theorem secrets_grant (hc : c.KeepsNames) {secret : String} {r : Recipient}
    {sealedKey : Bytes} {path : Option String} (h : l.grant secret r sealedKey path = .ok l') :
    l.SecretsAfter c l'.secrets := by
  rw [grant] at h
  obtain ⟨-, -, h⟩ := of_bind_eq_ok h
  obtain ⟨e, he, h⟩ := of_bind_eq_ok h
  obtain ⟨-, -, h⟩ := of_bind_eq_ok h
  obtain rfl := Except.ok.inj h
  exact .grants hc (NameMap.find_of_get he) _

theorem secrets_revoke (hc : c.KeepsNames) {secret : String} {r : Recipient} {n : Nat}
    (hr : r ≠ .group superGroup) (h : l.revoke secret r = .ok (n, l')) :
    l.SecretsAfter c l'.secrets := by
  rw [revoke] at h
  obtain ⟨-, -, h⟩ := of_bind_eq_ok h
  obtain ⟨e, he, h⟩ := of_bind_eq_ok h
  obtain ⟨-, -, h⟩ := of_bind_eq_ok h
  obtain ⟨-, rfl⟩ := Prod.mk.inj (Except.ok.inj h)
  exact .revokes hc (NameMap.find_of_get he) hr

theorem secrets_of_eq (hc : c.KeepsNames) (h : l'.secrets = l.secrets) :
    l.SecretsAfter c l'.secrets := by
  rw [h]
  exact .keeps hc

/-- **What a command can do to the secrets.** -/
theorem secrets_execute {a : Answer} (h : l.execute c = .ok (a, l')) :
    l.SecretsAfter c l'.secrets := by
  cases c with
  | createSecret now caller new => exact secrets_createSecret now (of_changed_eq_ok h)
  | assignToGroup now secret group sealedKey path =>
    have hgrant := of_changed_eq_ok h
    rw [assignToGroup] at hgrant
    obtain ⟨-, -, hgrant⟩ := of_bind_eq_ok hgrant
    exact secrets_grant trivial hgrant
  | assignToPrincipal now secret principal sealedKey path =>
    exact secrets_grant trivial (of_changed_eq_ok h)
  | revokeFromGroup secret group =>
    obtain ⟨n, hrevoke⟩ := of_counted_eq_ok h
    rw [revokeFromGroup] at hrevoke
    obtain ⟨_, hgroup, hrevoke⟩ := of_bind_eq_ok hrevoke
    have hother : group ≠ superGroup := of_decide_eq_true (of_require_eq_ok hgroup)
    exact secrets_revoke trivial (fun heq => hother (Recipient.group.inj heq)) hrevoke
  | revokeFromPrincipal secret principal =>
    obtain ⟨n, hrevoke⟩ := of_counted_eq_ok h
    exact secrets_revoke trivial Recipient.noConfusion hrevoke
  | deleteSecret name =>
    have hdelete := of_changed_eq_ok h
    rw [deleteSecret] at hdelete
    obtain ⟨-, -, hdelete⟩ := of_bind_eq_ok hdelete
    obtain ⟨-, -, hdelete⟩ := of_bind_eq_ok hdelete
    obtain rfl := Except.ok.inj hdelete
    exact .deletes name
  | deleteGroup name =>
    have hdelete := of_changed_eq_ok h
    rw [deleteGroup] at hdelete
    obtain ⟨_, hreserved, hdelete⟩ := of_bind_eq_ok hdelete
    obtain ⟨-, -, hdelete⟩ := of_bind_eq_ok hdelete
    obtain rfl := Except.ok.inj hdelete
    refine .drops (c := .deleteGroup name) trivial fun heq => ?_
    have hfree := of_require_eq_ok hreserved
    rw [Recipient.group.inj heq] at hfree
    exact absurd hfree (by decide)
  | deletePrincipal name =>
    have hdelete := of_changed_eq_ok h
    rw [deletePrincipal] at hdelete
    obtain ⟨-, -, hdelete⟩ := of_bind_eq_ok hdelete
    obtain rfl := Except.ok.inj hdelete
    exact .drops (c := .deletePrincipal name) trivial Recipient.noConfusion
  | bootstrap now setup =>
    exact secrets_of_eq trivial (secrets_of_bootstrap (of_changed_eq_ok h))
  | registerPrincipal now new =>
    exact secrets_of_eq trivial (secrets_of_registerPrincipal (of_changed_eq_ok h))
  | createGroup now name kind publicKey sealedPrivateKey =>
    exact secrets_of_eq trivial (secrets_of_createGroup (of_changed_eq_ok h))
  | reassignPrincipal principal group sealedGroupKey =>
    exact secrets_of_eq trivial (secrets_of_reassignPrincipal (of_changed_eq_ok h))
  | _ => exact secrets_of_eq trivial (congrArg secrets (of_shown_eq_ok h))

/-! ### The escrow along a run -/

/-- There is a secret with its escrow. -/
def HasEscrow (secrets : NameMap PlainSecret) (new : NewSecret) : Prop :=
  ∃ e, secrets.find new.name = some e ∧ e.Escrows new

variable {new : NewSecret}

/-- A new value under a name leaves an escrow alone if it escrows whatever the old value did. -/
theorem HasEscrow.set (h : HasEscrow l.secrets new) {s : String} {e' : PlainSecret}
    (he : ∀ e, l.secrets.find s = some e → e.Escrows new → e'.Escrows new) :
    HasEscrow (l.secrets.set s e') new := by
  obtain ⟨e, hfind, hescrow⟩ := h
  rw [HasEscrow, NameMap.find_set]
  by_cases hs : new.name = s
  · rw [if_pos hs]
    exact ⟨e', rfl, he e (hs ▸ hfind) hescrow⟩
  · rw [if_neg hs]
    exact ⟨e, hfind, hescrow⟩

/-- **An escrow begins with the creation of its secret and ends with its deletion only.** -/
theorem hasEscrow_execute {a : Answer} (h : l.execute c = .ok (a, l'))
    (hnew : c.Creates new ∨ HasEscrow l.secrets new ∧ ¬ c.Deletes new.name) :
    HasEscrow l'.secrets new := by
  have hsecrets := secrets_execute h
  generalize l'.secrets = secrets at hsecrets ⊢
  cases hsecrets with
  | keeps hc => exact (hnew.resolve_left (hc.not_creates new)).1
  | creates now caller n e hnone hescrow =>
    rcases hnew with rfl | ⟨hold, -⟩
    · exact ⟨e, NameMap.find_set_self _ _ _, hescrow⟩
    · exact hold.set fun e' he' _ => absurd he' (by simp [hnone])
  | grants hc hfind g =>
    refine (hnew.resolve_left (hc.not_creates new)).1.set fun e' he' hescrow => ?_
    rw [Option.some.inj (hfind.symm.trans he')]
    exact hescrow.add g
  | revokes hc hfind hr =>
    refine (hnew.resolve_left (hc.not_creates new)).1.set fun e' he' hescrow => ?_
    rw [Option.some.inj (hfind.symm.trans he')]
    exact hescrow.drop hr
  | drops hc hr =>
    obtain ⟨e, hfind, hescrow⟩ := (hnew.resolve_left (hc.not_creates new)).1
    exact ⟨_, by rw [NameMap.find_map, hfind, Option.map_some], hescrow.drop hr⟩
  | deletes s =>
    obtain ⟨⟨e, hfind, hescrow⟩, hother⟩ := hnew.resolve_left id
    exact ⟨e, by rw [NameMap.find_erase, if_neg (Ne.symm hother), hfind], hescrow⟩

/-- A new value under a name that is in use puts no other name into use. -/
theorem has_of_has_set {s t : String} {e e' : PlainSecret} (hfind : l.secrets.find s = some e)
    (h : (l.secrets.set s e').has t = true) : l.secrets.has t = true := by
  rw [NameMap.has_set, Bool.or_eq_true, decide_eq_true_eq] at h
  rcases h with rfl | h
  · rw [NameMap.has, hfind, Option.isSome_some]
  · exact h

/-- A secret that is there behind a command was created by it or was there before. -/
theorem has_of_execute {a : Answer} {s : String} (h : l.execute c = .ok (a, l'))
    (hs : l'.secrets.has s = true) :
    (∃ new, new.name = s ∧ c.Creates new) ∨ l.secrets.has s = true ∧ ¬ c.Deletes s := by
  have hsecrets := secrets_execute h
  generalize l'.secrets = secrets at hsecrets hs
  cases hsecrets with
  | keeps hc => exact .inr ⟨hs, hc.not_deletes s⟩
  | creates now caller n e =>
    rw [NameMap.has_set, Bool.or_eq_true, decide_eq_true_eq] at hs
    rcases hs with rfl | hs
    · exact .inl ⟨n, rfl, rfl⟩
    · exact .inr ⟨hs, id⟩
  | grants hc hfind g => exact .inr ⟨has_of_has_set hfind hs, hc.not_deletes s⟩
  | revokes hc hfind hr => exact .inr ⟨has_of_has_set hfind hs, hc.not_deletes s⟩
  | drops hc hr =>
    rw [has_map] at hs
    exact .inr ⟨hs, hc.not_deletes s⟩
  | deletes name =>
    rw [NameMap.has, NameMap.find_erase] at hs
    by_cases hname : s = name
    · rw [if_pos hname] at hs
      cases hs
    · rw [if_neg hname] at hs
      exact .inr ⟨hs, Ne.symm hname⟩

/-- **A secret that was created and not deleted since has its escrow**, and every secret that is
there has been created and not been deleted since. -/
theorem created_run (cs : List Command) :
    (∀ new, Created (run execute .empty cs).1 new →
        HasEscrow (run execute .empty cs).2.secrets new) ∧
      ∀ s, (run execute .empty cs).2.secrets.has s = true →
        ∃ new, new.name = s ∧ Created (run execute .empty cs).1 new := by
  -- the induction adds commands at the end, where a history grows
  induction cs using List.reverseRecOn with
  | nil => exact ⟨fun new hnew => absurd hnew not_standing_nil, fun s hs => by cases hs⟩
  | append_singleton cs c ih =>
    obtain ⟨hescrow, hcreated⟩ := ih
    rw [run_concat]
    cases hexecute : (run execute .empty cs).2.execute c with
    | error e =>
      -- a command that fails neither creates nor deletes
      rw [attempt_of_error hexecute]
      have hfails : ¬ Event.Succeeds ⟨c, .error e⟩ := fun ⟨a, ha⟩ => by cases ha
      refine ⟨fun new hnew => ?_, fun s hs => ?_⟩
      · rcases created_concat.1 hnew with hcreates | ⟨hnew, -⟩
        · exact absurd hcreates.1 hfails
        · exact hescrow new hnew
      · obtain ⟨new, rfl, hnew⟩ := hcreated s hs
        exact ⟨new, rfl, created_concat.2 (.inr ⟨hnew, fun hdeletes => hfails hdeletes.1⟩)⟩
    | ok x =>
      obtain ⟨a, l'⟩ := x
      rw [attempt_of_ok hexecute]
      have hsucceeds : Event.Succeeds ⟨c, .ok a⟩ := ⟨a, rfl⟩
      refine ⟨fun new hnew => hasEscrow_execute hexecute ?_, fun s hs => ?_⟩
      · rcases created_concat.1 hnew with hcreates | ⟨hnew, hdeletes⟩
        · exact .inl hcreates.2
        · exact .inr ⟨hescrow new hnew, fun hc => hdeletes ⟨hsucceeds, hc⟩⟩
      · rcases has_of_execute hexecute hs with ⟨new, rfl, hcreates⟩ | ⟨hs, hdeletes⟩
        · exact ⟨new, rfl, created_concat.2 (.inl ⟨hsucceeds, hcreates⟩)⟩
        · obtain ⟨new, rfl, hnew⟩ := hcreated s hs
          exact ⟨new, rfl, created_concat.2 (.inr ⟨hnew, fun hc => hdeletes hc.2⟩)⟩

/-! ### Reading the escrow -/

/-- The first recipient that a secret is listed with is the supergroup. -/
theorem HasEscrow.listed (h : HasEscrow l.secrets new) :
    (∃ s ∈ l.listSecrets, s.name = new.name) ∧ ∀ s ∈ l.listSecrets, s.name = new.name →
      s.recipients.head? = some (.group superGroup) := by
  obtain ⟨e, hfind, -, hfirst⟩ := h
  refine ⟨⟨_, List.mem_map_of_mem (NameMap.mem_list.2 hfind), rfl⟩, fun s hs hname => ?_⟩
  rw [recipients_of_mem_listSecrets hs, hname, grants_of_find_eq_some hfind, List.head?_map,
    hfirst, Option.map_some]

variable {name : String} {p : Principal}

theorem HasEscrow.fetched (h : HasEscrow l.secrets new) (hfind : l.principals.find name = some p)
    (hp : p.group = superGroup) :
    (∃ found, l.fetchSecret name new.name = .ok found ∧ new.escrow ∈ found) ∧
      ∃ found, l.fetchAccessible name = .ok found ∧ new.escrow ∈ found := by
  obtain ⟨e, hsecret, hescrow⟩ := h
  have hmem := hescrow.mem_access hp
  refine ⟨⟨e.access new.name p, ?_, hmem⟩,
    ⟨l.secrets.list.flatMap fun row => row.2.access row.1 p, ?_, ?_⟩⟩
  · simp only [fetchSecret, NameMap.get, hfind, hsecret, bind, Except.bind]
  · simp only [fetchAccessible, NameMap.get, hfind, bind, Except.bind]
  · exact List.mem_flatMap.2 ⟨_, NameMap.mem_list.2 hsecret, hmem⟩

theorem HasEscrow.canRead (h : HasEscrow l.secrets new) (hfind : l.principals.find name = some p)
    (hp : p.group = superGroup) : l.canRead name new.name = true := by
  obtain ⟨e, hsecret, hescrow⟩ := h
  refine (canRead_iff l name new.name).2
    ⟨p, hfind, .group superGroup, Principal.opens_superGroup hp, ?_⟩
  rw [Holds, grants_of_find_eq_some hsecret]
  exact ⟨_, hescrow.mem, rfl⟩

/-- Whoever creates a secret can read it: a member of the supergroup through the escrow, and anybody
else through the key that the creator had to give. -/
theorem canRead_createSecret (now : Moment) {caller : Identity}
    (h : l.createSecret caller new = .ok l') (hfind : l.principals.find caller.name = some p)
    (hname : p.name = caller.name)
    (hsuper : caller.superuser = decide (p.group = superGroup)) :
    l'.canRead caller.name new.name = true := by
  have hgrants := fun r => holds_createSecret (s := new.name) (r := r) now h
  obtain ⟨-, hkey, rfl⟩ := of_createSecret_eq_ok h
  rw [canRead_iff]
  refine ⟨p, hfind, ?_⟩
  by_cases hp : p.group = superGroup
  · exact ⟨.group superGroup, Principal.opens_superGroup hp,
      (hgrants _).2 (.inl ⟨rfl, .inl rfl⟩)⟩
  · rw [hsuper, decide_eq_false hp, Bool.false_or] at hkey
    obtain ⟨key, hkey⟩ := Option.isSome_iff_exists.1 hkey
    obtain ⟨hkey, hfull⟩ := Option.filter_eq_some_iff.1 hkey
    refine ⟨.principal caller.name, Principal.opens_iff.2 (.inl (by rw [hname])),
      (hgrants _).2 (.inl ⟨rfl, .inr ⟨⟨key, hkey, ?_⟩, rfl⟩⟩)⟩
    simpa using hfull

end PlainLedger

/-- **Escrow is permanent.**  After every run from the empty ledger, with fewer than `2 ^ 64 - 1`
wraps made, a secret that was created and has not been deleted since is listed with the supergroup
as its first recipient, and every member of the supergroup gets it through the supergroup, with the
payload, the key and the path that it was created with.  So members of the supergroup can read every
secret that is there.  And whoever creates a secret next, and is a principal whose identity tells
truly whether it is in the supergroup, can read it right after. -/
theorem escrow_is_permanent {cs : List Command} {es : List Event} {l : Ledger}
    (hrun : run Ledger.execute .empty cs = (es, l)) (hmade : wrapsMade es < 2 ^ 64 - 1) :
    (∀ new, Created es new →
      (∃ summaries, l.listSecrets = .ok summaries ∧ (∃ s ∈ summaries, s.name = new.name) ∧
        ∀ s ∈ summaries, s.name = new.name → s.recipients.head? = some (.group superGroup)) ∧
      ∀ name p, l.getPrincipal name = .ok p → p.group = superGroup →
        (∃ found, l.fetchSecret name new.name = .ok found ∧ new.escrow ∈ found) ∧
        (∃ found, l.fetchAccessible name = .ok found ∧ new.escrow ∈ found) ∧
        l.canRead name new.name = .ok true) ∧
    (∀ name p, l.getPrincipal name = .ok p → p.group = superGroup →
      ∀ secret, Ledger.has l.secrets secret = true → l.canRead name secret = .ok true) ∧
    ∀ (now : Moment) caller new p l', l.getPrincipal caller.name = .ok p →
      caller.superuser = decide (p.group = superGroup) →
      l.createSecret now.1 caller new = .ok l' →
      wrapsMade es + (Command.createSecret now caller new).wraps < 2 ^ 64 - 1 →
      l'.canRead caller.name new.name = .ok true := by
  have hplain := PlainLedger.created_run cs
  generalize hboth : run PlainLedger.execute .empty cs = both at hplain
  obtain ⟨es', p⟩ := both
  obtain ⟨rfl, hrep⟩ := Represents.of_run hrun hboth hmade
  obtain ⟨hescrow, hcreated⟩ := hplain
  have hprincipal : ∀ {name q}, l.getPrincipal name = .ok q → p.principals.find name = some q :=
    fun hq => NameMap.find_of_get ((hrep.getPrincipal_eq _).symm.trans hq)
  refine ⟨fun new hnew => ⟨⟨_, hrep.listSecrets_eq, (hescrow new hnew).listed⟩,
    fun name q hq hsuper => ?_⟩, fun name q hq hsuper secret hsecret => ?_,
    fun now caller new q l' hq hsuper hcreate hcount => ?_⟩
  · obtain ⟨hfetch, haccess⟩ := (hescrow new hnew).fetched (hprincipal hq) hsuper
    rw [hrep.fetchSecret_eq, hrep.fetchAccessible_eq, hrep.canRead_eq]
    exact ⟨hfetch, haccess,
      congrArg Except.ok ((hescrow new hnew).canRead (hprincipal hq) hsuper)⟩
  · obtain ⟨new, rfl, hnew⟩ := hcreated secret (hrep.secrets.has_eq secret ▸ hsecret)
    rw [hrep.canRead_eq, (hescrow new hnew).canRead (hprincipal hq) hsuper]
  · obtain ⟨-, -, -, -, -, hname, -⟩ := hrep.principals.present _ q (hprincipal hq)
    have hmatch := hrep.createSecret now caller new
    rw [hcreate] at hmatch
    generalize hstep : p.createSecret caller new = outcome at hmatch
    cases hmatch with
    | @ok _ p' hrep' =>
      rw [(hrep' (by omega)).canRead_eq,
        PlainLedger.canRead_createSecret now hstep (hprincipal hq) hname hsuper]

/-- A secret for examples. -/
def sampleSecret : NewSecret := ⟨"db", [3], [4], some [5], some "/db"⟩

/-- A run in which a principal that is called like the supergroup creates a secret, and everything
that could take the escrow away is tried. -/
def sampleEscrow : List Command :=
  [.bootstrap leapDay ⟨List.replicate 32 1, [1],
      some ⟨⟨"root", .admin, List.replicate 32 2, [2]⟩, [7]⟩⟩,
    .registerPrincipal leapDay ⟨"super", .client, List.replicate 32 3, [3]⟩,
    .createSecret leapDay ⟨"super", "default", false, false⟩ sampleSecret,
    .assignToGroup leapDay "db" "super" [6] none,
    .revokeFromGroup "db" "super",
    .revokeFromPrincipal "db" "super",
    .deleteGroup "super",
    .deletePrincipal "super"]

theorem escrow_is_permanent_sampleEscrow :
    let es := (run Ledger.execute .empty sampleEscrow).1
    let l := (run Ledger.execute .empty sampleEscrow).2
    wrapsMade es = 3 ∧ Created es sampleSecret ∧
      (∃ found, l.fetchSecret "root" "db" = .ok found ∧
        ⟨"db", [3], [4], some "/db", .group superGroup⟩ ∈ found) ∧
      ∃ l', l.createSecret leapDay.1 ⟨"root", "super", true, true⟩ ⟨"api", [8], [9], none, none⟩ =
          .ok l' ∧ l'.canRead "root" "api" = .ok true := by
  intro es l
  have hmade : wrapsMade es = 3 := by decide +kernel
  obtain ⟨hescrow, -, hcreator⟩ := @escrow_is_permanent sampleEscrow es l rfl (by omega)
  have hnew : Created es sampleSecret := by
    simp only [es, sampleEscrow, run_cons, run_nil]
    refine ⟨[_, _], _, [_, _, _, _, _], rfl, ⟨⟨.done, by decide +kernel⟩, rfl⟩, ?_⟩
    simp [Event.Deletes, Command.Deletes]
  have hroot : l.getPrincipal "root" = .ok
      ⟨"root", .admin, List.replicate 32 2, "super", some [7], [2], leapDay.1⟩ := by decide +kernel
  refine ⟨hmade, hnew, ((hescrow _ hnew).2 _ _ hroot rfl).1, ?_⟩
  have hok : (l.createSecret leapDay.1 ⟨"root", "super", true, true⟩
      ⟨"api", [8], [9], none, none⟩).isOk = true := by decide +kernel
  cases hcreate : l.createSecret leapDay.1 ⟨"root", "super", true, true⟩
      ⟨"api", [8], [9], none, none⟩ with
  | error e =>
    rw [hcreate] at hok
    cases hok
  | ok l' =>
    have hcount : wrapsMade es + 1 < 2 ^ 64 - 1 := by omega
    have hreads := hcreator leapDay ⟨"root", "super", true, true⟩ ⟨"api", [8], [9], none, none⟩ _ l'
      hroot (by decide) hcreate hcount
    exact ⟨l', rfl, hreads⟩

end Strongroom
