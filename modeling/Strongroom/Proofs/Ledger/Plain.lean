import Strongroom.Ledger.Bootstrap
import Strongroom.Ledger.Groups
import Strongroom.Ledger.Secrets
import Strongroom.Proofs.NameMap

/-!
# The plain ledger

What the ledger is meant to be, without tables, bytes, numbers or rows: principals, groups and
secrets are finite maps from names, and a secret holds its payload, its creator and the list of its
grants in the order in which they were made.  The operations make the same checks in the same order
as those of `Ledger`, and then say in one line what changes.  Nothing here can fail with a corrupt
row.  That the ledger answers exactly as the plain ledger does is the subject of
`Proofs/Ledger/Refinement.lean`.
-/

namespace Strongroom

/-- The key of a secret, sealed for a recipient. -/
structure Grant where
  /-- Whom the key is sealed for. -/
  recipient : Recipient
  sealedKey : Bytes
  /-- A path that the client may attach. -/
  path : Option String
  deriving DecidableEq, Repr

/-- What there is under the name of a secret. -/
structure PlainSecret where
  /-- The sealed payload. -/
  payload : Bytes
  /-- The principal that created it. -/
  createdBy : String
  /-- Its grants, in the order in which they were made. -/
  grants : List Grant
  deriving DecidableEq, Repr

/-- The three maps of the plain ledger. -/
structure PlainLedger where
  principals : NameMap Principal
  groups : NameMap Group
  /-- The secrets with their grants. -/
  secrets : NameMap PlainSecret

/-- The value under a name that must be there. -/
def NameMap.get {α : Type} (m : NameMap α) (name : String) (subject : Subject) :
    Except Ledger.Error α :=
  match m.find name with
  | some a => .ok a
  | none => .error (.notFound subject)

theorem NameMap.find_of_get {α : Type} {m : NameMap α} {name : String} {subject : Subject} {a : α}
    (h : m.get name subject = .ok a) : m.find name = some a := by
  rw [NameMap.get] at h
  split at h
  · next hfind => exact hfind.trans (congrArg some (Except.ok.inj h))
  · cases h

namespace PlainSecret

/-- A secret after one more grant. -/
def add (s : PlainSecret) (g : Grant) : PlainSecret := { s with grants := s.grants ++ [g] }

/-- A secret without its grants to a recipient. -/
def drop (s : PlainSecret) (r : Recipient) : PlainSecret :=
  { s with grants := s.grants.filter fun g => g.recipient ≠ r }

/-- What a principal gets of a secret: one entry for each grant that it can open. -/
def access (s : PlainSecret) (name : String) (p : Principal) : List AccessibleSecret :=
  (s.grants.filter fun g => p.opens g.recipient).map fun g =>
    ⟨name, s.payload, g.sealedKey, g.path, g.recipient⟩

end PlainSecret

namespace PlainLedger

open Ledger (Error require checkName checkPublicKey given inDefaultGroup)

/-- The plain ledger without entries. -/
def empty : PlainLedger := ⟨.empty, .empty, .empty⟩

/-- The grants of a secret; none if there is no such secret. -/
def grants (l : PlainLedger) (secret : String) : List Grant :=
  ((l.secrets.find secret).map (·.grants)).getD []

/-! ### Principals and groups -/

/-- Whether the supergroup is there. -/
def isInitialized (l : PlainLedger) : Bool := l.groups.has superGroup

/-- Gives a name a value unless it has one. -/
def keepOrSet {α : Type} (m : NameMap α) (name : String) (a : α) : NameMap α :=
  if m.has name then m else m.set name a

/-- Gives the ledger its built-in groups and its first administrator. -/
def bootstrap (l : PlainLedger) (now : Timestamp) (setup : Bootstrap) :
    Except Error PlainLedger := do
  checkPublicKey "supergroup" setup.superPublicKey
  require (!setup.superSealedPrivateKey.isEmpty) .supergroupPrivateKeyRequired
  let default : Group := ⟨defaultGroup, .client, [], [], true, now⟩
  let super : Group :=
    ⟨superGroup, .admin, setup.superPublicKey, setup.superSealedPrivateKey, true, now⟩
  let groups := keepOrSet (keepOrSet l.groups defaultGroup default) superGroup super
  match setup.admin with
  | none => .ok { l with groups }
  | some ⟨new, sealedGroupKey⟩ =>
    checkName "principal" new.name
    checkPublicKey "principal" new.publicKey
    let p : Principal := ⟨new.name, .admin, new.publicKey, superGroup,
      given (some sealedGroupKey), new.passwordHash, now⟩
    .ok { l with groups, principals := keepOrSet l.principals new.name p }

/-- Registers a principal in the default group. -/
def registerPrincipal (l : PlainLedger) (now : Timestamp) (new : NewPrincipal) :
    Except Error PlainLedger := do
  checkName "principal" new.name
  checkPublicKey "principal" new.publicKey
  require (!new.passwordHash.isEmpty) .passwordRequired
  require (!l.principals.has new.name) (.duplicate (.principal new.name))
  let p : Principal :=
    ⟨new.name, new.kind, new.publicKey, defaultGroup, none, new.passwordHash, now⟩
  .ok { l with principals := l.principals.set new.name p }

/-- Creates a group. -/
def createGroup (l : PlainLedger) (now : Timestamp) (name : String) (kind : Role)
    (publicKey sealedPrivateKey : Bytes) : Except Error PlainLedger := do
  checkName "group" name
  checkPublicKey "group" publicKey
  require (!sealedPrivateKey.isEmpty) .groupPrivateKeyRequired
  require (!(isReserved name || l.groups.has name)) (.duplicate (.group name))
  .ok { l with groups := l.groups.set name ⟨name, kind, publicKey, sealedPrivateKey, false, now⟩ }

/-- Deletes a group and every grant to it, and moves its members to the default group. -/
def deleteGroup (l : PlainLedger) (name : String) : Except Error PlainLedger := do
  require (!isReserved name) (.builtinGroup name)
  require (l.groups.has name) (.notFound (.group name))
  .ok {
    principals := l.principals.map fun p => if p.group = name then inDefaultGroup p else p
    groups := l.groups.erase name
    secrets := l.secrets.map (·.drop (.group name)) }

/-- Moves a principal to another group, together with its copy of the group's private key. -/
def reassignPrincipal (l : PlainLedger) (principal group : String)
    (sealedGroupKey : Option Bytes) : Except Error PlainLedger := do
  let sealedGroupKey := if group = defaultGroup then none else given sealedGroupKey
  require (group = defaultGroup || sealedGroupKey.isSome) .sealedGroupKeyRequired
  require (l.groups.has group) (.notFound (.group group))
  let p ← l.principals.get principal (.principal principal)
  .ok { l with principals := l.principals.set principal { p with group, sealedGroupKey } }

/-- Deletes a principal and every grant to it. -/
def deletePrincipal (l : PlainLedger) (name : String) : Except Error PlainLedger := do
  require (l.principals.has name) (.notFound (.principal name))
  .ok { l with
    principals := l.principals.erase name
    secrets := l.secrets.map (·.drop (.principal name)) }

/-- What a login under a name is checked against; nothing if there is no such principal. -/
def lookup (l : PlainLedger) (name : String) : Option Credentials :=
  (l.principals.find name).map fun p => ⟨p.name, p.group, p.kind.isAdmin, p.passwordHash⟩

/-! ### Secrets -/

/-- Stores a new secret, granted to the supergroup and to its creator if there is a key for it. -/
def createSecret (l : PlainLedger) (caller : Identity) (new : NewSecret) :
    Except Error PlainLedger := do
  checkName "secret" new.name
  require (!isReserved new.name) (.reservedSecret new.name)
  require (!new.payload.isEmpty) .payloadRequired
  require (!new.superKey.isEmpty) .supergroupKeyRequired
  let creatorKey := given new.creatorKey
  require (caller.superuser || creatorKey.isSome) .creatorKeyRequired
  require (!l.secrets.has new.name) (.duplicate (.secret new.name))
  let grants := ⟨.group superGroup, new.superKey, new.path⟩ ::
    creatorKey.toList.map fun key => ⟨.principal caller.name, key, new.path⟩
  .ok { l with secrets := l.secrets.set new.name ⟨new.payload, caller.name, grants⟩ }

/-- Whether a recipient is there. -/
def hasRecipient (l : PlainLedger) : Recipient → Bool
  | .principal name => l.principals.has name
  | .group name => l.groups.has name

/-- Grants a recipient access to a secret. -/
def grant (l : PlainLedger) (secret : String) (recipient : Recipient) (sealedKey : Bytes)
    (path : Option String) : Except Error PlainLedger := do
  require (!sealedKey.isEmpty) .sealedKeyRequired
  let s ← l.secrets.get secret (.secret secret)
  require (l.hasRecipient recipient) (.notFound recipient.subject)
  .ok { l with secrets := l.secrets.set secret (s.add ⟨recipient, sealedKey, path⟩) }

/-- Grants a group access to a secret; the default group holds none. -/
def assignToGroup (l : PlainLedger) (secret group : String) (sealedKey : Bytes)
    (path : Option String) : Except Error PlainLedger := do
  require (group ≠ defaultGroup) .defaultGroupHoldsNothing
  l.grant secret (.group group) sealedKey path

/-- Takes the grants of a secret to a recipient away and counts them. -/
def revoke (l : PlainLedger) (secret : String) (recipient : Recipient) :
    Except Error (Nat × PlainLedger) := do
  checkName "secret" secret
  let s ← l.secrets.get secret (.secret secret)
  let removed := s.grants.countP fun g => g.recipient = recipient
  require (removed ≠ 0) (.notFound (.wrap secret recipient))
  .ok (removed, { l with secrets := l.secrets.set secret (s.drop recipient) })

/-- Takes a group's grants of a secret away; those of the supergroup are permanent. -/
def revokeFromGroup (l : PlainLedger) (secret group : String) :
    Except Error (Nat × PlainLedger) := do
  require (group ≠ superGroup) .supergroupWrapPermanent
  l.revoke secret (.group group)

/-- Deletes a secret with its grants. -/
def deleteSecret (l : PlainLedger) (name : String) : Except Error PlainLedger := do
  require (!isReserved name) (.secretNameReserved name)
  require (l.secrets.has name) (.notFound (.secret name))
  .ok { l with secrets := l.secrets.erase name }

/-- Every secret that a principal can open, in the byte order of their names and once for each
grant. -/
def fetchAccessible (l : PlainLedger) (principal : String) :
    Except Error (List AccessibleSecret) := do
  let p ← l.principals.get principal (.principal principal)
  .ok (l.secrets.list.flatMap fun (name, s) => s.access name p)

/-- One secret, once for each grant that a principal can open. -/
def fetchSecret (l : PlainLedger) (principal secret : String) :
    Except Error (List AccessibleSecret) := do
  let p ← l.principals.get principal (.principal principal)
  let s ← l.secrets.get secret (.secret secret)
  .ok (s.access secret p)

/-- Whether a principal can open a grant of a secret. -/
def canRead (l : PlainLedger) (principal secret : String) : Bool :=
  match l.principals.find principal with
  | none => false
  | some p => (l.grants secret).any fun g => p.opens g.recipient

/-- Every secret with the recipients of its grants, in the byte order of their names. -/
def listSecrets (l : PlainLedger) : List SecretSummary :=
  l.secrets.list.map fun (name, s) => ⟨name, s.createdBy, s.grants.map (·.recipient)⟩

/-! ### The order of what is read -/

theorem grants_of_mem_list {l : PlainLedger} {x : String × PlainSecret} (h : x ∈ l.secrets.list) :
    l.grants x.1 = x.2.grants := by
  rw [grants, NameMap.mem_list.1 h]
  rfl

theorem pairwise_listSecrets (l : PlainLedger) :
    l.listSecrets.Pairwise fun s t => utf8 s.name < utf8 t.name :=
  List.pairwise_map.2 l.secrets.pairwise_list

theorem recipients_of_mem_listSecrets {l : PlainLedger} {s : SecretSummary}
    (h : s ∈ l.listSecrets) : s.recipients = (l.grants s.name).map (·.recipient) := by
  obtain ⟨⟨name, e⟩, hx, rfl⟩ := List.mem_map.1 h
  exact congrArg _ (grants_of_mem_list hx).symm

theorem name_of_mem_access {s : PlainSecret} {name : String} {p : Principal}
    {a : AccessibleSecret} (h : a ∈ s.access name p) : a.name = name := by
  obtain ⟨g, -, rfl⟩ := List.mem_map.1 h
  rfl

/-- What a principal can open comes in the byte order of the secrets' names, and for each secret in
the order in which the grants were made. -/
theorem of_fetchAccessible {l : PlainLedger} {name : String} {found : List AccessibleSecret}
    (h : l.fetchAccessible name = .ok found) :
    found.Pairwise (fun s t => utf8 s.name ≤ utf8 t.name) ∧
      ∃ p, l.principals.find name = some p ∧ ∀ secret,
        (found.filter fun s => s.name = secret).map
            (fun s => (⟨s.via, s.sealedKey, s.path⟩ : Grant)) =
          (l.grants secret).filter fun g => p.opens g.recipient := by
  rw [fetchAccessible] at h
  cases hget : l.principals.get name (.principal name) with
  | error e =>
    rw [hget] at h
    cases h
  | ok p =>
    rw [hget] at h
    obtain rfl := Except.ok.inj h
    refine ⟨?_, p, NameMap.find_of_get hget, fun secret => ?_⟩
    · rw [List.pairwise_flatMap]
      refine ⟨fun x _ => List.pairwise_iff_forall_sublist.2 fun {a b} hab => ?_,
        l.secrets.pairwise_list.imp fun hlt a ha b hb => ?_⟩
      · have ha := name_of_mem_access (hab.subset (List.mem_cons_self ..))
        have hb := name_of_mem_access (hab.subset (List.mem_cons_of_mem _ (List.mem_cons_self ..)))
        rw [ha, hb]
        exact Std.le_refl _
      · rw [name_of_mem_access ha, name_of_mem_access hb]
        exact Std.le_of_lt hlt
    · have hone : ∀ x : String × PlainSecret, x.1 ≠ secret →
          ((x.2.access x.1 p).filter fun s => s.name = secret) = [] := by
        intro x hx
        rw [List.filter_eq_nil_iff]
        intro a ha
        rw [name_of_mem_access ha, decide_eq_true_eq]
        exact hx
      rw [List.filter_flatMap, NameMap.flatMap_list hone, grants]
      cases l.secrets.find secret with
      | none => rfl
      | some e =>
        show ((e.access secret p).filter _).map _ = e.grants.filter _
        rw [List.filter_eq_self.2 fun a ha => decide_eq_true (name_of_mem_access ha),
          PlainSecret.access, List.map_map]
        exact List.map_id _

end PlainLedger

end Strongroom
