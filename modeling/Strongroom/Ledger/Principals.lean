import Strongroom.Ledger.Basic

/-!
# Principals

Principals are registered into the default group. Outside it a principal holds the private key of
its group, sealed for itself; only the presence of that key can be checked here. Deleting a
principal deletes the wraps for it.
-/

namespace Strongroom

/-- What a new principal is made from. -/
structure NewPrincipal where
  name : String
  /-- Whether it is an administrator or a client. -/
  kind : Role
  publicKey : Bytes
  /-- The hash of the password. -/
  passwordHash : Bytes
  deriving DecidableEq, Repr

namespace Ledger

/-- Registers a principal in the default group. -/
def registerPrincipal (l : Ledger) (now : Timestamp) (new : NewPrincipal) :
    Except Error Ledger := do
  checkName "principal" new.name
  checkPublicKey "principal" new.publicKey
  require (!new.passwordHash.isEmpty) .passwordRequired
  require (!has l.principals new.name) (.duplicate (.principal new.name))
  let p : Principal :=
    ⟨new.name, new.kind, new.publicKey, defaultGroup, none, new.passwordHash, now⟩
  .ok { l with principals := l.principals.insert (utf8 new.name) p.toJson }

/-- Moves a principal to another group, together with its sealed copy of the group's private key.
In the default group there is no such copy. -/
def reassignPrincipal (l : Ledger) (principal group : String) (sealedGroupKey : Option Bytes) :
    Except Error Ledger := do
  let sealedGroupKey := if group = defaultGroup then none else given sealedGroupKey
  require (group = defaultGroup || sealedGroupKey.isSome) .sealedGroupKeyRequired
  require (has l.groups group) (.notFound (.group group))
  let p ← row Principal.layout l.principals principal (.principal principal)
  let p := { p with group, sealedGroupKey }
  .ok { l with principals := l.principals.insert (utf8 principal) p.toJson }

/-- Deletes a principal and the wraps for it. -/
def deletePrincipal (l : Ledger) (name : String) : Except Error Ledger := do
  require (has l.principals name) (.notFound (.principal name))
  let l := { l with principals := l.principals.erase (utf8 name) }
  let (_, l) ← l.removeWraps none fun wrap => wrap.recipient = .principal name
  .ok l

/-- A principal. -/
def getPrincipal (l : Ledger) (name : String) : Except Error Principal :=
  row Principal.layout l.principals name (.principal name)

/-- What a login under a name is checked against; nothing if there is no such principal. -/
def lookup (l : Ledger) (name : String) : Except Error (Option Credentials) :=
  match l.getPrincipal name with
  | .ok p => .ok (some ⟨p.name, p.group, p.kind.isAdmin, p.passwordHash⟩)
  | .error (.notFound _) => .ok none
  | .error e => .error e

end Ledger

end Strongroom
