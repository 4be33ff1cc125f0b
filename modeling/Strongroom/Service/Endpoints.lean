import Strongroom.Http.Route
import Strongroom.Service.Basic

/-!
# Endpoints

What the service does for somebody who has a session. Byte strings in messages are ciphertext that
the clients have prepared; the service only decodes them and keeps or returns them.
-/

namespace Strongroom.Service

open Access (Caller)
open Http (Endpoint Parameters Request)

variable (w : Surroundings) (s : Service) (caller : Caller) (ps : Parameters) (r : Request)

/-! ### Sessions -/

/-- Closes the caller's session. -/
def logout : Outcome :=
  .ok ([Message.Response.toJson ⟨"logged out"⟩],
    { s with sessions := (s.sessions.logout caller.session).2 })

/-! ### Secrets -/

/-- Every secret that the caller can open, once for each wrap. -/
def listAccessible : Outcome := do
  let found ← ofLedger (s.ledger.fetchAccessible caller.identity.name)
  s.answer (found.map (·.toMessage.toJson))

/-- Creates a secret. -/
def createSecret : Outcome := do
  let m ← messageOf r Message.Key.layout
  let payload ← requiredBytes m.secret "secret"
  let superKey ← requiredBytes m.key "key"
  let creatorKey ← optionalBytes m.userKey "userKey"
  let new : NewSecret := ⟨m.name, payload, superKey, creatorKey, optionalText m.path⟩
  let ledger ← ofLedger (s.ledger.createSecret w.time caller.identity new)
  s.acknowledge ledger ("secret " ++ m.name ++ " created")

/-- One secret, once for each wrap that the caller can open. -/
def fetchSecret : Outcome := do
  let found ← ofLedger (s.ledger.fetchSecret caller.identity.name (ps.get "name"))
  s.answer (found.map (·.toMessage.toJson))

/-- Deletes a secret. -/
def deleteSecret : Outcome := do
  let name := ps.get "name"
  let ledger ← ofLedger (s.ledger.deleteSecret name)
  s.acknowledge ledger ("secret " ++ name ++ " deleted")

/-- Wraps a secret for a group. -/
def assignToGroup : Outcome := do
  let name := ps.get "name"
  let group := ps.get "group"
  let m ← messageOf r Message.Key.layout
  let key ← requiredBytes m.key "key"
  let ledger ← ofLedger (s.ledger.assignToGroup w.time name group key (optionalText m.path))
  s.acknowledge ledger ("secret " ++ name ++ " granted to group " ++ group)

/-- Removes the wraps of a secret for a group. -/
def revokeFromGroup : Outcome := do
  let name := ps.get "name"
  let group := ps.get "group"
  let (_, ledger) ← ofLedger (s.ledger.revokeFromGroup name group)
  s.acknowledge ledger ("secret " ++ name ++ " revoked from group " ++ group)

/-- Wraps a secret for a principal. -/
def assignToPrincipal : Outcome := do
  let name := ps.get "name"
  let user := ps.get "user"
  let m ← messageOf r Message.Key.layout
  let key ← requiredBytes m.key "key"
  let ledger ← ofLedger (s.ledger.assignToPrincipal w.time name user key (optionalText m.path))
  s.acknowledge ledger ("secret " ++ name ++ " granted to " ++ user)

/-- Removes the wraps of a secret for a principal. -/
def revokeFromPrincipal : Outcome := do
  let name := ps.get "name"
  let user := ps.get "user"
  let (_, ledger) ← ofLedger (s.ledger.revokeFromPrincipal name user)
  s.acknowledge ledger ("secret " ++ name ++ " revoked from " ++ user)

/-- Every secret with its recipients. -/
def listSecrets : Outcome := do
  let found ← ofLedger s.ledger.listSecrets
  s.answer (found.map (·.toMessage.toJson))

/-! ### Groups -/

/-- The names and public keys of all groups. -/
def listGroups : Outcome := do
  let groups ← ofLedger s.ledger.listGroups
  s.answer (groups.map (·.toPublicMessage.toJson))

/-- What a caller sees of the private key of a group: as a member the copy sealed for itself,
otherwise as a superuser the copy sealed for the supergroup, and else nothing. -/
def groupKeyFor (group : Group) (member : Principal) (superuser : Bool) : String :=
  if member.group = group.name then (member.sealedGroupKey.map Base64.encode).getD ""
  else if superuser then Base64.encode group.sealedPrivateKey
  else ""

/-- The public key of a group, and its private key as far as the caller may see it. -/
def getGroup : Outcome := do
  let group ← ofLedger (s.ledger.getGroup (ps.get "name"))
  let member ← ofLedger (s.ledger.getPrincipal caller.identity.name)
  let groupPriv := groupKeyFor group member caller.identity.superuser
  s.answer [({ group.toPublicMessage with groupPriv } : Message.Key).toJson]

/-- Creates a group. -/
def createGroup : Outcome := do
  match Http.formFlag? "admin" (r.target.query.getD []) with
  | none => .error (.plain 400 "Failed to deserialize query string")
  | some admin =>
    let m ← messageOf r Message.Key.layout
    let publicKey ← requiredBytes m.groupPub "groupPub"
    let sealedPrivateKey ← requiredBytes m.groupPriv "groupPriv"
    let ledger ← ofLedger
      (s.ledger.createGroup w.time m.name (.ofAdmin admin) publicKey sealedPrivateKey)
    s.acknowledge ledger ("group " ++ m.name ++ " created")

/-- Deletes a group. -/
def deleteGroup : Outcome := do
  let name := ps.get "name"
  let ledger ← ofLedger (s.ledger.deleteGroup name)
  s.acknowledge ledger ("group " ++ name ++ " deleted")

/-! ### Principals -/

/-- Registers a principal. -/
def register : Outcome := do
  let m ← messageOf r Message.User.layout
  ofLedger (Ledger.checkName "principal" m.name)
  if m.password.isEmpty then fail (.badRequest "password is required")
  else
    let publicKey ← requiredBytes m.key "key"
    let passwordHash ← ofCrypto (w.passwords.hash (utf8 m.password) w.salt)
    let kind := Role.ofAdmin m.admin
    let ledger ← ofLedger
      (s.ledger.registerPrincipal w.time ⟨m.name, kind, publicKey, passwordHash⟩)
    s.acknowledge ledger (kind.name ++ " " ++ m.name ++ " registered")

/-- The profile of a principal. -/
def getUser : Outcome := do
  let p ← ofLedger (s.ledger.getPrincipal (ps.get "name"))
  s.answer [p.toMessage.toJson]

/-- Deletes a principal other than the caller. -/
def deleteUser : Outcome := do
  let name := ps.get "name"
  if caller.identity.name = name then fail (.forbidden "principals cannot delete themselves")
  else
    let ledger ← ofLedger (s.ledger.deletePrincipal name)
    s.acknowledge ledger (name ++ " deleted")

/-- Moves a principal to another group. -/
def reassign : Outcome := do
  let name := ps.get "name"
  let m ← messageOf r Message.Key.layout
  if m.name.isEmpty then fail (.badRequest "group name is required")
  else
    let sealedGroupKey ← optionalBytes m.groupPriv "groupPriv"
    let ledger ← ofLedger (s.ledger.reassignPrincipal name m.name sealedGroupKey)
    s.acknowledge ledger (name ++ " moved to group " ++ m.name)

/-- Does what an endpoint is for. -/
def run : Endpoint → Outcome
  | .logout => s.logout caller
  | .listAccessible => s.listAccessible caller
  | .createSecret => s.createSecret w caller r
  | .fetchSecret => s.fetchSecret caller ps
  | .deleteSecret => s.deleteSecret ps
  | .assignToGroup => s.assignToGroup w ps r
  | .revokeFromGroup => s.revokeFromGroup ps
  | .assignToPrincipal => s.assignToPrincipal w ps r
  | .revokeFromPrincipal => s.revokeFromPrincipal ps
  | .listSecrets => s.listSecrets
  | .listGroups => s.listGroups
  | .createGroup => s.createGroup w r
  | .getGroup => s.getGroup caller ps
  | .deleteGroup => s.deleteGroup ps
  | .register => s.register w r
  | .getUser => s.getUser ps
  | .deleteUser => s.deleteUser caller ps
  | .reassign => s.reassign ps r

end Strongroom.Service
