import Strongroom.Proofs.Ledger.Integrity

/-!
# One record at a time

What a command that succeeds does to the record under one name.  Of the groups and of the secrets
the table after the command is a function of the table before it (`Command.groupsAfter`,
`Command.secretsAfter`), for no command looks into their rows.  Principals are read and written
back, all members of a group at once when the group goes.  So it is the principal under a name that
is a function of the one before (`Command.principalAfter`),

    l'.principal? name = c.principalAfter name (l.principal? name),

and for that the table must be sound.  A record that is there is never replaced by a new one: where
a command adds a row, it adds it only if the name is free.
-/

namespace Strongroom

/-! ### Records by name -/

namespace Ledger

section

variable {α : Type} {layout : Json.Layout α} {fits : Bytes → α → Prop} {t : Table Bytes Bytes}

/-- The record under a name, if there is one and it can be read. -/
def record? (layout : Json.Layout α) (t : Table Bytes Bytes) (name : String) : Option α :=
  (t.get? (utf8 name)).bind fun row => (decode layout row).toOption

theorem record?_eq_some_iff {name : String} {a : α} :
    record? layout t name = some a ↔
      ∃ row, t.get? (utf8 name) = some row ∧ decode layout row = .ok a := by
  rw [record?, Option.bind_eq_some_iff]
  refine exists_congr fun row => and_congr_right fun _ => ?_
  cases decode layout row with
  | error e => simp [Except.toOption]
  | ok b => simp [Except.toOption]

theorem record?_insert {row : Bytes} {a : α} (ha : decode layout row = .ok a) (n name : String) :
    record? layout (t.insert (utf8 n) row) name =
      if n = name then some a else record? layout t name := by
  rw [record?, record?, Table.get?_insert]
  by_cases hn : n = name
  · rw [if_pos hn, if_pos (by rw [hn]), Option.bind_some, ha]
    rfl
  · rw [if_neg hn, if_neg fun heq => hn (utf8_inj.1 heq).symm]

theorem record?_erase (n name : String) :
    record? layout (t.erase (utf8 n)) name = if n = name then none else record? layout t name := by
  rw [record?, record?, Table.get?_erase]
  by_cases hn : n = name
  · rw [if_pos hn, if_pos (by rw [hn]), Option.bind_none]
  · rw [if_neg hn, if_neg fun heq => hn (utf8_inj.1 heq).symm]

theorem record?_addRow (hsound : SoundRows layout fits t) {row : Bytes} {a : α}
    (ha : decode layout row = .ok a) (n name : String) :
    record? layout (addRow t n row) name =
      if n = name then record? layout t name <|> some a else record? layout t name := by
  rw [addRow]
  by_cases hn : n = name
  · subst hn
    rw [if_pos rfl]
    split
    · next hthere =>
      obtain ⟨bytes, hget⟩ := Option.isSome_iff_exists.1 hthere
      obtain ⟨b, hb, -⟩ := hsound _ (Table.get?_eq_some_iff.1 hget)
      rw [record?_eq_some_iff.2 ⟨bytes, hget, hb⟩]
      rfl
    · next hfree =>
      have hget := has_eq_false_iff.1 (Bool.eq_false_of_not_eq_true hfree)
      have hrecord : record? layout t n = none := by
        rw [record?, hget]
        rfl
      rw [record?_insert ha, if_pos rfl, hrecord]
      rfl
  · rw [if_neg hn]
    split
    · rfl
    · rw [record?_insert ha, if_neg hn]

namespace SoundRows

theorem fits_of_record? (h : SoundRows layout fits t) {name : String} {a : α}
    (ha : record? layout t name = some a) : fits (utf8 name) a := by
  obtain ⟨row, hget, hrow⟩ := record?_eq_some_iff.1 ha
  obtain ⟨b, hb, hfit⟩ := h _ (Table.get?_eq_some_iff.1 hget)
  rw [hrow] at hb
  cases hb
  exact hfit

theorem has_eq_isSome (h : SoundRows layout fits t) (name : String) :
    has t name = (record? layout t name).isSome := by
  rw [has, Table.contains, record?]
  cases hget : t.get? (utf8 name) with
  | none => rfl
  | some row =>
    obtain ⟨b, hb, -⟩ := h _ (Table.get?_eq_some_iff.1 hget)
    rw [Option.bind_some, hb]
    rfl

theorem record?_eq_none_iff (h : SoundRows layout fits t) {name : String} :
    record? layout t name = none ↔ has t name = false := by
  rw [h.has_eq_isSome, Option.isSome_eq_false_iff, Option.isNone_iff_eq_none]

theorem row?_eq (h : SoundRows layout fits t) (name : String) :
    row? layout t name = .ok (record? layout t name) := by
  rw [row?, record?]
  cases hget : t.get? (utf8 name) with
  | none => rfl
  | some row =>
    obtain ⟨b, hb, -⟩ := h _ (Table.get?_eq_some_iff.1 hget)
    simp only [Option.bind_some, hb]
    rfl

/-- A record is looked up as it is. -/
theorem row_eq (h : SoundRows layout fits t) {name : String} {a : α}
    (ha : record? layout t name = some a) (subject : Subject) :
    row layout t name subject = .ok a := by
  rw [row, h.row?_eq, ha]
  rfl

end SoundRows

theorem record?_of_row_eq_ok {name : String} {subject : Subject} {a : α}
    (h : row layout t name subject = .ok a) : record? layout t name = some a :=
  record?_eq_some_iff.2 (exists_of_row_eq_ok h)

end

/-- The principal under a name. -/
def principal? (l : Ledger) (name : String) : Option Principal :=
  record? Principal.layout l.principals name

theorem Intact.name_of_principal? {l : Ledger} (h : l.Intact) {name : String} {p : Principal}
    (hp : l.principal? name = some p) : p.name = name :=
  (utf8_inj.1 (h.principals.fits_of_record? hp)).symm

theorem Intact.getPrincipal_eq_ok_iff {l : Ledger} (h : l.Intact) {name : String} {p : Principal} :
    l.getPrincipal name = .ok p ↔ l.principal? name = some p :=
  ⟨record?_of_row_eq_ok, fun hp => h.principals.row_eq hp _⟩

theorem Intact.has_principals {l : Ledger} (h : l.Intact) (name : String) :
    has l.principals name = (l.principal? name).isSome :=
  h.principals.has_eq_isSome name

theorem Intact.exists_principal? {l : Ledger} (h : l.Intact) {name : String}
    (hname : has l.principals name = true) : ∃ p, l.principal? name = some p := by
  rw [h.has_principals] at hname
  exact Option.isSome_iff_exists.1 hname

theorem Intact.principal?_eq_none_iff {l : Ledger} (h : l.Intact) {name : String} :
    l.principal? name = none ↔ has l.principals name = false :=
  h.principals.record?_eq_none_iff

/-- The secret under a name. -/
def secret? (l : Ledger) (name : String) : Option Secret :=
  record? Secret.layout l.secrets name

theorem Intact.name_of_secret? {l : Ledger} (h : l.Intact) {name : String} {s : Secret}
    (hs : l.secret? name = some s) : s.name = name :=
  (utf8_inj.1 (h.secrets.fits_of_record? hs).key).symm

theorem Intact.has_secrets {l : Ledger} (h : l.Intact) (name : String) :
    has l.secrets name = (l.secret? name).isSome :=
  h.secrets.has_eq_isSome name

theorem Intact.exists_secret? {l : Ledger} (h : l.Intact) {name : String}
    (hname : has l.secrets name = true) : ∃ s, l.secret? name = some s := by
  rw [h.has_secrets] at hname
  exact Option.isSome_iff_exists.1 hname

/-- The name of a secret is one that a secret may be created under. -/
theorem Intact.accepted_of_has {l : Ledger} (h : l.Intact) {name : String}
    (hname : has l.secrets name = true) :
    checkName "secret" name = .ok () ∧ isReserved name = false := by
  obtain ⟨s, hs⟩ := h.exists_secret? hname
  have hfit := h.secrets.fits_of_record? hs
  rw [← h.name_of_secret? hs]
  exact ⟨hfit.name, hfit.unreserved⟩

/-! ### Members that are moved -/

/-- The record under a name after principals have been written back to the default group. -/
theorem record?_foldl_moved {ps : List Principal} {t : Table Bytes Bytes} {name : String}
    {p : Option Principal} (hvalid : ∀ q ∈ ps, q.createdAt.IsValid)
    (hp : ∀ q ∈ ps, q.name = name → some (inDefaultGroup q) = p) :
    record? Principal.layout (ps.foldl (fun table q =>
        table.insert (utf8 q.name) (inDefaultGroup q).toJson) t) name =
      if ∃ q ∈ ps, q.name = name then p else record? Principal.layout t name := by
  induction ps generalizing t with
  | nil => simp
  | cons q qs ih =>
    have hq : (inDefaultGroup q).createdAt.IsValid := hvalid q (by simp)
    rw [List.foldl_cons, ih (fun q' hq' => hvalid q' (by simp [hq']))
      (fun q' hq' => hp q' (by simp [hq'])), record?_insert (Principal.decode_toJson hq)]
    by_cases hlater : ∃ q' ∈ qs, q'.name = name
    · rw [if_pos hlater, if_pos (by simpa using .inr (by simpa using hlater))]
    · rw [if_neg hlater]
      by_cases hname : q.name = name
      · rw [if_pos hname, if_pos ⟨q, by simp, hname⟩]
        exact hp q (by simp) hname
      · rw [if_neg hname, if_neg]
        rintro ⟨q', hq', hname'⟩
        rcases List.mem_cons.1 hq' with rfl | hq'
        · exact hname hname'
        · exact hlater ⟨q', hq', hname'⟩

/-- The members of a group that goes are in the default group, and the others stay as they are. -/
theorem record?_moveMembers {t : Table Bytes Bytes} {ps : List Principal}
    (hsound : SoundRows Principal.layout (fun key p => key = utf8 p.name) t)
    (hall : all Principal.layout t = .ok ps) (group name : String) :
    record? Principal.layout ((ps.filter fun p => p.group = group).foldl (fun table q =>
        table.insert (utf8 q.name) (inDefaultGroup q).toJson) t) name =
      (record? Principal.layout t name).map fun p =>
        if p.group = group then inDefaultGroup p else p := by
  have hmem : ∀ q, q ∈ ps → record? Principal.layout t q.name = some q := by
    intro q hq
    obtain ⟨row, hrow, hdecode⟩ := (mem_of_all_eq_ok hall).1 hq
    obtain ⟨q', hdecode', hkey⟩ := hsound row hrow
    rw [hdecode] at hdecode'
    cases hdecode'
    have hget : t.get? (utf8 q.name) = some row.2 := by
      rw [← hkey]
      exact Table.get?_eq_some_iff.2 hrow
    exact record?_eq_some_iff.2 ⟨row.2, hget, hdecode⟩
  rw [record?_foldl_moved (p := (record? Principal.layout t name).map inDefaultGroup)]
  · by_cases hmoved : ∃ q ∈ ps.filter fun p => p.group = group, q.name = name
    · obtain ⟨q, hq, rfl⟩ := hmoved
      obtain ⟨hq, hgroup⟩ := List.mem_filter.1 hq
      rw [if_pos ⟨q, List.mem_filter.2 ⟨hq, hgroup⟩, rfl⟩, hmem q hq, Option.map_some,
        Option.map_some, if_pos (of_decide_eq_true hgroup)]
    · rw [if_neg hmoved]
      cases hrecord : record? Principal.layout t name with
      | none => rfl
      | some p =>
        have hname : p.name = name := (utf8_inj.1 (hsound.fits_of_record? hrecord)).symm
        obtain ⟨row, hget, hdecode⟩ := record?_eq_some_iff.1 hrecord
        have hp : p ∈ ps :=
          (mem_of_all_eq_ok hall).2 ⟨_, Table.get?_eq_some_iff.1 hget, hdecode⟩
        rw [Option.map_some, if_neg fun hgroup => hmoved
          ⟨p, List.mem_filter.2 ⟨hp, by simpa using hgroup⟩, hname⟩]
  · intro q hq
    obtain ⟨row, -, hdecode⟩ := (mem_of_all_eq_ok hall).1 (List.mem_of_mem_filter hq)
    exact Principal.isValid_of_decode hdecode
  · intro q hq hname
    rw [← hname, hmem q (List.mem_of_mem_filter hq)]
    rfl

end Ledger

/-! ### What commands do -/

/-- A principal that has just been registered. -/
def NewPrincipal.registered (new : NewPrincipal) (now : Moment) : Principal :=
  ⟨new.name, new.kind, new.publicKey, defaultGroup, none, new.passwordHash, now.1⟩

/-- The first administrator as it enters the ledger. -/
def BootstrapAdmin.installed (admin : BootstrapAdmin) (now : Moment) : Principal :=
  ⟨admin.principal.name, .admin, admin.principal.publicKey, superGroup,
    Ledger.given (some admin.sealedGroupKey), admin.principal.passwordHash, now.1⟩

/-- The principal under a name after a command, by the one before it. -/
def Command.principalAfter (c : Command) (name : String) (old : Option Principal) :
    Option Principal :=
  match c with
  | .bootstrap now setup =>
    match setup.admin with
    | none => old
    | some admin =>
      if admin.principal.name = name then old <|> some (admin.installed now) else old
  | .registerPrincipal now new => if new.name = name then old <|> some (new.registered now) else old
  | .deleteGroup group => old.map fun p => if p.group = group then Ledger.inDefaultGroup p else p
  | .reassignPrincipal principal group sealedGroupKey =>
    if principal = name then old.map fun p => { p with
      group, sealedGroupKey := if group = defaultGroup then none else Ledger.given sealedGroupKey }
    else old
  | .deletePrincipal principal => if principal = name then none else old
  | _ => old

/-- The table of groups after a command, by the one before it. -/
def Command.groupsAfter (c : Command) (groups : Table Bytes Bytes) : Table Bytes Bytes :=
  match c with
  | .bootstrap now setup =>
    let default : Group := ⟨defaultGroup, .client, [], [], true, now.1⟩
    let super : Group :=
      ⟨superGroup, .admin, setup.superPublicKey, setup.superSealedPrivateKey, true, now.1⟩
    Ledger.addRow (Ledger.addRow groups defaultGroup default.toJson) superGroup super.toJson
  | .createGroup now name kind publicKey sealedPrivateKey =>
    let group : Group := ⟨name, kind, publicKey, sealedPrivateKey, false, now.1⟩
    Ledger.addRow groups name group.toJson
  | .deleteGroup name => groups.erase (utf8 name)
  | _ => groups

/-- The table of secrets after a command, by the one before it. -/
def Command.secretsAfter (c : Command) (secrets : Table Bytes Bytes) : Table Bytes Bytes :=
  match c with
  | .createSecret now caller new =>
    let secret : Secret := ⟨new.name, new.payload, caller.name, now.1⟩
    Ledger.addRow secrets new.name secret.toJson
  | .deleteSecret name => secrets.erase (utf8 name)
  | _ => secrets

namespace Ledger

theorem addRow_of_has_eq_false {t : Table Bytes Bytes} {name : String} (h : has t name = false)
    (row : Bytes) : addRow t name row = t.insert (utf8 name) row := by
  rw [addRow, h]
  rfl

variable {l l' : Ledger}

/-! ### Operations that have succeeded -/

theorem of_bootstrap_eq_ok {now : Timestamp} {setup : Bootstrap}
    (h : l.bootstrap now setup = .ok l') :
    setup.superPublicKey.length = publicKeyLength ∧ setup.superSealedPrivateKey ≠ [] ∧
      match setup.admin with
      | none => l' = l.addBuiltinGroups now setup
      | some admin => (l.addBuiltinGroups now setup).addAdmin now admin = .ok l' := by
  rw [bootstrap] at h
  obtain ⟨_, hlength, h⟩ := of_bind_eq_ok h
  obtain ⟨_, hkey, h⟩ := of_bind_eq_ok h
  refine ⟨of_decide_eq_true (of_require_eq_ok hlength), by simpa using of_require_eq_ok hkey, ?_⟩
  cases hadmin : setup.admin with
  | none =>
    rw [hadmin] at h
    exact (Except.ok.inj h).symm
  | some admin =>
    rw [hadmin] at h
    exact h

theorem of_addAdmin_eq_ok {now : Moment} {admin : BootstrapAdmin}
    (h : l.addAdmin now.1 admin = .ok l') :
    l' = { l with
      principals := addRow l.principals admin.principal.name (admin.installed now).toJson } := by
  rw [addAdmin] at h
  obtain ⟨-, -, h⟩ := of_bind_eq_ok h
  obtain ⟨-, -, h⟩ := of_bind_eq_ok h
  exact (Except.ok.inj h).symm

theorem of_registerPrincipal_eq_ok {now : Moment} {new : NewPrincipal}
    (h : l.registerPrincipal now.1 new = .ok l') :
    has l.principals new.name = false ∧ l' = { l with
      principals := l.principals.insert (utf8 new.name) (new.registered now).toJson } := by
  rw [registerPrincipal] at h
  obtain ⟨-, -, h⟩ := of_bind_eq_ok h
  obtain ⟨-, -, h⟩ := of_bind_eq_ok h
  obtain ⟨-, -, h⟩ := of_bind_eq_ok h
  obtain ⟨_, hfree, h⟩ := of_bind_eq_ok h
  exact ⟨by simpa using of_require_eq_ok hfree, (Except.ok.inj h).symm⟩

theorem of_deleteGroup_eq_ok {name : String} (h : l.deleteGroup name = .ok l') :
    isReserved name = false ∧ ∃ (n : Nat) (t : Ledger) (ps : List Principal),
      ({ l with groups := l.groups.erase (utf8 name) } : Ledger).removeWraps none
        (fun wrap => wrap.recipient = .group name) = .ok (n, t) ∧
      all Principal.layout l.principals = .ok ps ∧
      l' = { t with principals := (ps.filter fun p => p.group = name).foldl (fun table p =>
        table.insert (utf8 p.name) (inDefaultGroup p).toJson) l.principals } := by
  rw [deleteGroup] at h
  obtain ⟨_, hfree, h⟩ := of_bind_eq_ok h
  obtain ⟨-, -, h⟩ := of_bind_eq_ok h
  obtain ⟨⟨n, t⟩, hremove, h⟩ := of_bind_eq_ok h
  obtain ⟨ps, hall, h⟩ := of_bind_eq_ok h
  obtain ⟨rest, ht⟩ := of_removeWraps_eq_ok hremove
  refine ⟨by simpa using of_require_eq_ok hfree, n, t, ps, hremove, ?_, ?_⟩
  · rw [ht] at hall
    exact hall
  · rw [← Except.ok.inj h, ht]

theorem of_reassignPrincipal_eq_ok {principal group : String} {sealedGroupKey : Option Bytes}
    (h : l.reassignPrincipal principal group sealedGroupKey = .ok l') :
    (group = defaultGroup ∨ (given sealedGroupKey).isSome = true) ∧ has l.groups group = true ∧
      ∃ p, l.getPrincipal principal = .ok p ∧ l' = { l with
        principals := l.principals.insert (utf8 principal) (Principal.toJson { p with
          group
          sealedGroupKey := if group = defaultGroup then none else given sealedGroupKey }) } := by
  rw [reassignPrincipal] at h
  obtain ⟨_, hkey, h⟩ := of_bind_eq_ok h
  obtain ⟨_, hgroup, h⟩ := of_bind_eq_ok h
  obtain ⟨p, hp, h⟩ := of_bind_eq_ok h
  refine ⟨?_, of_require_eq_ok hgroup, p, hp, (Except.ok.inj h).symm⟩
  have hgiven := of_require_eq_ok hkey
  by_cases hdefault : group = defaultGroup
  · exact .inl hdefault
  · rw [if_neg hdefault] at hgiven
    simp only [hdefault, decide_false, Bool.false_or] at hgiven
    exact .inr hgiven

theorem of_deletePrincipal_eq_ok {name : String} (h : l.deletePrincipal name = .ok l') :
    ∃ n, ({ l with principals := l.principals.erase (utf8 name) } : Ledger).removeWraps none
      (fun wrap => wrap.recipient = .principal name) = .ok (n, l') := by
  rw [deletePrincipal] at h
  obtain ⟨-, -, h⟩ := of_bind_eq_ok h
  obtain ⟨⟨n, t⟩, hremove, h⟩ := of_bind_eq_ok h
  exact ⟨n, Except.ok.inj h ▸ hremove⟩

theorem of_deleteSecret_eq_ok {name : String} (h : l.deleteSecret name = .ok l') :
    ∃ n t, l.removeWraps (some name) (fun _ => true) = .ok (n, t) ∧
      l' = { t with secrets := t.secrets.erase (utf8 name) } := by
  rw [deleteSecret] at h
  obtain ⟨-, -, h⟩ := of_bind_eq_ok h
  obtain ⟨-, -, h⟩ := of_bind_eq_ok h
  obtain ⟨⟨n, t⟩, hremove, h⟩ := of_bind_eq_ok h
  exact ⟨n, t, hremove, (Except.ok.inj h).symm⟩

/-- A revocation removes wraps and does nothing else. -/
theorem removeWraps_of_revoke {secret : String} {recipient : Recipient} {n : Nat}
    (h : l.revoke secret recipient = .ok (n, l')) :
    l.removeWraps (some secret) (fun wrap => wrap.secret = secret && wrap.recipient = recipient) =
      .ok (n, l') := by
  rw [revoke] at h
  obtain ⟨-, -, h⟩ := of_bind_eq_ok h
  obtain ⟨-, -, h⟩ := of_bind_eq_ok h
  obtain ⟨⟨m, t⟩, hremove, h⟩ := of_bind_eq_ok h
  obtain ⟨-, -, h⟩ := of_bind_eq_ok h
  exact Except.ok.inj h ▸ hremove

/-! ### The records after a command -/

/-- The records of a ledger are those of another one after a command. -/
structure RecordsAfter (c : Command) (l l' : Ledger) : Prop where
  principals : ∀ name, l'.principal? name = c.principalAfter name (l.principal? name)
  groups : l'.groups = c.groupsAfter l.groups
  secrets : l'.secrets = c.secretsAfter l.secrets

variable {c : Command} {a : Answer}

theorem recordsAfter_bootstrap (h : l.Intact) {now : Moment} {setup : Bootstrap}
    (hok : l.bootstrap now.1 setup = .ok l') : RecordsAfter (.bootstrap now setup) l l' := by
  obtain ⟨-, -, hok⟩ := of_bootstrap_eq_ok hok
  cases hadmin : setup.admin with
  | none =>
    simp only [hadmin] at hok
    subst hok
    refine ⟨fun name => ?_, rfl, rfl⟩
    simp only [Command.principalAfter, hadmin]
    rfl
  | some admin =>
    simp only [hadmin] at hok
    obtain rfl := of_addAdmin_eq_ok hok
    refine ⟨fun name => ?_, rfl, rfl⟩
    simp only [Command.principalAfter, hadmin]
    exact record?_addRow h.principals (Principal.decode_toJson now.2) _ _

/-- A new principal takes nobody's place. -/
theorem recordsAfter_registerPrincipal (h : l.Intact) {now : Moment} {new : NewPrincipal}
    (hok : l.registerPrincipal now.1 new = .ok l') :
    RecordsAfter (.registerPrincipal now new) l l' := by
  obtain ⟨hfree, rfl⟩ := of_registerPrincipal_eq_ok hok
  refine ⟨fun name => ?_, rfl, rfl⟩
  rw [← addRow_of_has_eq_false hfree]
  exact record?_addRow h.principals (Principal.decode_toJson now.2) _ _

theorem recordsAfter_createSecret {now : Moment} {caller : Identity} {new : NewSecret}
    (hok : l.createSecret now.1 caller new = .ok l') :
    RecordsAfter (.createSecret now caller new) l l' := by
  obtain ⟨hfree, -, hl⟩ := of_createSecret_eq_ok hok
  split at hl
  · subst hl
    exact ⟨fun name => rfl, rfl, (addRow_of_has_eq_false hfree _).symm⟩
  · subst hl
    exact ⟨fun name => rfl, rfl, (addRow_of_has_eq_false hfree _).symm⟩

/-- The members of a group that is deleted stay, in the default group. -/
theorem recordsAfter_deleteGroup (h : l.Intact) {name : String}
    (hok : l.deleteGroup name = .ok l') : RecordsAfter (.deleteGroup name) l l' := by
  obtain ⟨-, n, t, ps, hremove, hall, rfl⟩ := of_deleteGroup_eq_ok hok
  obtain ⟨wraps, rfl⟩ := of_removeWraps_eq_ok hremove
  exact ⟨record?_moveMembers h.principals hall name, rfl, rfl⟩

theorem recordsAfter_reassignPrincipal (h : l.Intact) {principal group : String}
    {sealedGroupKey : Option Bytes}
    (hok : l.reassignPrincipal principal group sealedGroupKey = .ok l') :
    RecordsAfter (.reassignPrincipal principal group sealedGroupKey) l l' := by
  obtain ⟨-, -, p, hp, rfl⟩ := of_reassignPrincipal_eq_ok hok
  refine ⟨fun name => ?_, rfl, rfl⟩
  obtain ⟨row, -, hrow⟩ := exists_of_row_eq_ok hp
  let moved : Principal := { p with
    group, sealedGroupKey := if group = defaultGroup then none else given sealedGroupKey }
  have hvalid : moved.createdAt.IsValid := Principal.isValid_of_decode (p := p) hrow
  have hinsert := record?_insert (t := l.principals) (Principal.decode_toJson hvalid) principal name
  rw [principal?, hinsert, Command.principalAfter]
  by_cases hname : principal = name
  · subst hname
    rw [if_pos rfl, if_pos rfl, h.getPrincipal_eq_ok_iff.1 hp]
    rfl
  · rw [if_neg hname, if_neg hname]
    rfl

theorem recordsAfter_deletePrincipal {name : String} (hok : l.deletePrincipal name = .ok l') :
    RecordsAfter (.deletePrincipal name) l l' := by
  obtain ⟨n, hremove⟩ := of_deletePrincipal_eq_ok hok
  obtain ⟨wraps, rfl⟩ := of_removeWraps_eq_ok hremove
  exact ⟨fun other => record?_erase name other, rfl, rfl⟩

/-- **What a command does to the records.** -/
theorem Intact.recordsAfter (h : l.Intact) (hok : l.execute c = .ok (a, l')) :
    RecordsAfter c l l' := by
  cases c with
  | bootstrap now setup => exact recordsAfter_bootstrap h (of_changed_eq_ok hok)
  | registerPrincipal now new => exact recordsAfter_registerPrincipal h (of_changed_eq_ok hok)
  | createGroup now name kind publicKey sealedPrivateKey =>
    obtain ⟨-, hfree, rfl⟩ := of_createGroup_eq_ok (of_changed_eq_ok hok)
    exact ⟨fun name => rfl, (addRow_of_has_eq_false hfree _).symm, rfl⟩
  | deleteGroup name => exact recordsAfter_deleteGroup h (of_changed_eq_ok hok)
  | createSecret now caller new => exact recordsAfter_createSecret (of_changed_eq_ok hok)
  | assignToGroup now secret group sealedKey path =>
    obtain ⟨-, -, hgrant⟩ := of_bind_eq_ok (of_changed_eq_ok hok)
    obtain ⟨-, rfl⟩ := of_grant_eq_ok hgrant
    exact ⟨fun name => rfl, rfl, rfl⟩
  | assignToPrincipal now secret principal sealedKey path =>
    obtain ⟨-, rfl⟩ := of_grant_eq_ok (of_changed_eq_ok hok)
    exact ⟨fun name => rfl, rfl, rfl⟩
  | revokeFromGroup secret group =>
    obtain ⟨n, hrevoke⟩ := of_counted_eq_ok hok
    obtain ⟨-, -, hrevoke⟩ := of_bind_eq_ok hrevoke
    obtain ⟨wraps, rfl⟩ := of_revoke_eq_ok hrevoke
    exact ⟨fun name => rfl, rfl, rfl⟩
  | revokeFromPrincipal secret principal =>
    obtain ⟨n, hrevoke⟩ := of_counted_eq_ok hok
    obtain ⟨wraps, rfl⟩ := of_revoke_eq_ok hrevoke
    exact ⟨fun name => rfl, rfl, rfl⟩
  | deleteSecret name =>
    obtain ⟨n, t, hremove, rfl⟩ := of_deleteSecret_eq_ok (of_changed_eq_ok hok)
    obtain ⟨wraps, rfl⟩ := of_removeWraps_eq_ok hremove
    exact ⟨fun name => rfl, rfl, rfl⟩
  | reassignPrincipal principal group sealedGroupKey =>
    exact recordsAfter_reassignPrincipal h (of_changed_eq_ok hok)
  | deletePrincipal name => exact recordsAfter_deletePrincipal (of_changed_eq_ok hok)
  | _ =>
    obtain rfl := of_shown_eq_ok hok
    exact ⟨fun name => rfl, rfl, rfl⟩

/-- Whoever has been registered is in the ledger, and nobody of the name was before. -/
theorem Intact.of_registerPrincipal (h : l.Intact) {now : Moment} {new : NewPrincipal}
    (hok : l.registerPrincipal now.1 new = .ok l') :
    l'.Intact ∧ l'.wraps = l.wraps ∧ has l.principals new.name = false ∧
      l'.principal? new.name = some (new.registered now) := by
  have hexecute : l.execute (.registerPrincipal now new) = .ok (.done, l') := by
    show changed (l.registerPrincipal now.1 new) = _
    rw [hok]
    rfl
  obtain ⟨hfree, hl⟩ := of_registerPrincipal_eq_ok hok
  refine ⟨h.execute hexecute, by rw [hl], hfree, ?_⟩
  rw [(h.recordsAfter hexecute).principals, Command.principalAfter, if_pos rfl,
    h.principal?_eq_none_iff.2 hfree]
  rfl

/-- A secret that has been created is in the ledger, with the payload as it was given. -/
theorem Intact.secret?_of_createSecret (h : l.Intact) {now : Moment} {caller : Identity}
    {new : NewSecret} (hok : l.execute (.createSecret now caller new) = .ok (a, l')) :
    l'.secret? new.name = some ⟨new.name, new.payload, caller.name, now.1⟩ := by
  obtain ⟨hfree, -⟩ := of_createSecret_eq_ok (of_changed_eq_ok hok)
  rw [secret?, (h.recordsAfter hok).secrets, Command.secretsAfter, addRow_of_has_eq_false hfree,
    record?_insert (Secret.decode_toJson now.2), if_pos rfl]

/-- **A principal stays until it is deleted**, and all that changes is the group that it is in. -/
theorem Intact.principal?_execute_of_ne (h : l.Intact) (hok : l.execute c = .ok (a, l'))
    {name : String} {p : Principal} (hp : l.principal? name = some p)
    (hdelete : c ≠ .deletePrincipal name) :
    ∃ group sealedGroupKey, l'.principal? name = some { p with group, sealedGroupKey } := by
  have hsame : ∃ group sealedGroupKey, some p = some { p with group, sealedGroupKey } :=
    ⟨p.group, p.sealedGroupKey, rfl⟩
  rw [(h.recordsAfter hok).principals, hp]
  cases c with
  | bootstrap now setup =>
    simp only [Command.principalAfter]
    split
    · exact hsame
    · split <;> exact hsame
  | registerPrincipal now new =>
    simp only [Command.principalAfter]
    split <;> exact hsame
  | deleteGroup group =>
    simp only [Command.principalAfter, Option.map_some]
    split
    · exact ⟨defaultGroup, none, rfl⟩
    · exact hsame
  | reassignPrincipal principal group sealedGroupKey =>
    simp only [Command.principalAfter, Option.map_some]
    split
    · exact ⟨group, _, rfl⟩
    · exact hsame
  | deletePrincipal principal =>
    have hother : principal ≠ name := fun heq => hdelete (by rw [heq])
    rw [Command.principalAfter, if_neg hother]
    exact hsame
  | _ => exact hsame

theorem Intact.has_principals_execute (h : l.Intact) (hok : l.execute c = .ok (a, l'))
    {name : String} (hname : has l.principals name = true) (hdelete : c ≠ .deletePrincipal name) :
    has l'.principals name = true := by
  obtain ⟨p, hp⟩ := h.exists_principal? hname
  obtain ⟨group, sealedGroupKey, hp'⟩ := h.principal?_execute_of_ne hok hp hdelete
  rw [(h.execute hok).has_principals, hp']
  rfl

/-- **A secret stays as it is until it is deleted.** -/
theorem Intact.secret?_execute_of_ne (h : l.Intact) (hok : l.execute c = .ok (a, l'))
    {name : String} {s : Secret} (hs : l.secret? name = some s)
    (hdelete : c ≠ .deleteSecret name) : l'.secret? name = some s := by
  rw [secret?, (h.recordsAfter hok).secrets]
  cases c with
  | createSecret now caller new =>
    rw [Command.secretsAfter, record?_addRow h.secrets (Secret.decode_toJson now.2)]
    rw [secret?] at hs
    rw [hs]
    split <;> rfl
  | deleteSecret other =>
    have hother : other ≠ name := fun heq => hdelete (by rw [heq])
    rw [Command.secretsAfter, record?_erase, if_neg hother]
    exact hs
  | _ => exact hs

end Ledger

end Strongroom
