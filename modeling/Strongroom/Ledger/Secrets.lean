import Strongroom.Ledger.Basic

/-!
# Secrets and grants

A secret is created together with a wrap for the supergroup and, unless its creator is in the
supergroup and gives none, a wrap for its creator. Grants are only ever added: a second grant to the
same recipient is a second wrap. A revocation removes all wraps of a secret for a recipient, but
those for the supergroup stay. A principal can open the wraps for itself and those for its group,
unless that is the default group.
-/

namespace Strongroom

/-- What a new secret is made from. -/
structure NewSecret where
  name : String
  /-- The sealed payload. -/
  payload : Bytes
  /-- The secret's key, sealed for the supergroup. -/
  superKey : Bytes
  /-- The secret's key, sealed for the creator. -/
  creatorKey : Option Bytes
  /-- A path that the client may attach. -/
  path : Option String
  deriving DecidableEq, Repr

/-- A secret as a principal gets it: the payload and a wrap that it can open. -/
structure AccessibleSecret where
  name : String
  /-- The sealed payload. -/
  payload : Bytes
  /-- The secret's key, sealed for `via`. -/
  sealedKey : Bytes
  /-- The path of the wrap. -/
  path : Option String
  /-- Whom the wrap is for. -/
  via : Recipient
  deriving DecidableEq, Repr

/-- A secret and whom it is wrapped for. -/
structure SecretSummary where
  name : String
  /-- The principal that created it. -/
  createdBy : String
  /-- The recipients of its wraps, in the order in which the wraps were made. -/
  recipients : List Recipient
  deriving DecidableEq, Repr

/-- Whether a principal can open wraps for a recipient: those for itself and those for its group,
unless that is the default group. -/
def Principal.opens (p : Principal) (r : Recipient) : Bool :=
  r = .principal p.name || (p.group ≠ defaultGroup && r = .group p.group)

namespace Ledger

/-- Stores a new secret with its wraps. A creator outside the supergroup must give a key for itself,
or it could never read the secret back. -/
def createSecret (l : Ledger) (now : Timestamp) (caller : Identity) (new : NewSecret) :
    Except Error Ledger := do
  checkName "secret" new.name
  require (!isReserved new.name) (.reservedSecret new.name)
  require (!new.payload.isEmpty) .payloadRequired
  require (!new.superKey.isEmpty) .supergroupKeyRequired
  let creatorKey := given new.creatorKey
  require (caller.superuser || creatorKey.isSome) .creatorKeyRequired
  require (!has l.secrets new.name) (.duplicate (.secret new.name))
  let secret : Secret := ⟨new.name, new.payload, caller.name, now⟩
  let l := { l with secrets := l.secrets.insert (utf8 new.name) secret.toJson }
  let l := l.addWrap ⟨new.name, .group superGroup, new.superKey, new.path, now⟩
  match creatorKey with
  | none => .ok l
  | some key => .ok (l.addWrap ⟨new.name, .principal caller.name, key, new.path, now⟩)

/-- Grants a recipient access to a secret. -/
def grant (l : Ledger) (now : Timestamp) (secret : String) (recipient : Recipient)
    (sealedKey : Bytes) (path : Option String) : Except Error Ledger := do
  require (!sealedKey.isEmpty) .sealedKeyRequired
  require (has l.secrets secret) (.notFound (.secret secret))
  l.checkRecipient recipient
  .ok (l.addWrap ⟨secret, recipient, sealedKey, path, now⟩)

/-- Grants a group access to a secret; the default group holds none. -/
def assignToGroup (l : Ledger) (now : Timestamp) (secret group : String) (sealedKey : Bytes)
    (path : Option String) : Except Error Ledger := do
  require (group ≠ defaultGroup) .defaultGroupHoldsNothing
  l.grant now secret (.group group) sealedKey path

/-- Grants a principal access to a secret. -/
def assignToPrincipal (l : Ledger) (now : Timestamp) (secret principal : String)
    (sealedKey : Bytes) (path : Option String) : Except Error Ledger :=
  l.grant now secret (.principal principal) sealedKey path

/-- Removes all wraps of a secret for a recipient and counts them. -/
def revoke (l : Ledger) (secret : String) (recipient : Recipient) :
    Except Error (Nat × Ledger) := do
  checkName "secret" secret
  require (has l.secrets secret) (.notFound (.secret secret))
  let (removed, l) ← l.removeWraps (some secret) fun wrap =>
    wrap.secret = secret && wrap.recipient = recipient
  require (removed ≠ 0) (.notFound (.wrap secret recipient))
  .ok (removed, l)

/-- Removes a group's wraps of a secret; those of the supergroup are permanent. -/
def revokeFromGroup (l : Ledger) (secret group : String) : Except Error (Nat × Ledger) := do
  require (group ≠ superGroup) .supergroupWrapPermanent
  l.revoke secret (.group group)

/-- Removes a principal's own wraps of a secret. -/
def revokeFromPrincipal (l : Ledger) (secret principal : String) : Except Error (Nat × Ledger) :=
  l.revoke secret (.principal principal)

/-- Deletes a secret and every wrap of it. -/
def deleteSecret (l : Ledger) (name : String) : Except Error Ledger := do
  require (!isReserved name) (.secretNameReserved name)
  require (has l.secrets name) (.notFound (.secret name))
  let (_, l) ← l.removeWraps (some name) fun _ => true
  .ok { l with secrets := l.secrets.erase (utf8 name) }

/-! ### Reading -/

/-- What a principal gets of a secret through a wrap; nothing if the secret is gone. -/
def accessThrough (l : Ledger) (wrap : Wrap) : Except Error (Option AccessibleSecret) := do
  match ← row? Secret.layout l.secrets wrap.secret with
  | none => .ok none
  | some secret =>
    .ok (some ⟨secret.name, secret.payload, wrap.sealedKey, wrap.path, wrap.recipient⟩)

/-- What a principal can open of one secret, or of all. -/
def accessible (l : Ledger) (principal : String) (secret : Option String) :
    Except Error (List AccessibleSecret) := do
  let p ← row Principal.layout l.principals principal (.principal principal)
  match secret with
  | some name => require (has l.secrets name) (.notFound (.secret name))
  | none => .ok ()
  let wraps ← l.scanWraps secret
  let found ← (wraps.filter fun (_, wrap) => p.opens wrap.recipient).mapM fun (_, wrap) =>
    l.accessThrough wrap
  .ok (found.filterMap id)

/-- Every secret that a principal can open, once for each wrap. -/
def fetchAccessible (l : Ledger) (principal : String) : Except Error (List AccessibleSecret) :=
  l.accessible principal none

/-- One secret, once for each wrap that a principal can open. -/
def fetchSecret (l : Ledger) (principal secret : String) : Except Error (List AccessibleSecret) :=
  l.accessible principal (some secret)

/-- Whether a principal can open a wrap of a secret. -/
def canRead (l : Ledger) (principal secret : String) : Except Error Bool :=
  match l.fetchSecret principal secret with
  | .ok found => .ok !found.isEmpty
  | .error (.notFound _) => .ok false
  | .error e => .error e

/-- Every secret with the recipients of its wraps. -/
def listSecrets (l : Ledger) : Except Error (List SecretSummary) := do
  let secrets ← all Secret.layout l.secrets
  secrets.mapM fun secret => do
    let wraps ← l.scanWraps (some secret.name)
    .ok ⟨secret.name, secret.createdBy, wraps.map (·.2.recipient)⟩

end Ledger

end Strongroom
