import Strongroom.Ledger.Principals

/-!
# Bootstrap

Before the first use the ledger is given its two built-in groups and, if asked to, a first
administrator in the supergroup. Rows that are there already are left as they are.
-/

namespace Strongroom

/-- The first administrator and its sealed copy of the supergroup's private key. -/
structure BootstrapAdmin where
  /-- The administrator. -/
  principal : NewPrincipal
  /-- The private key of the supergroup, sealed for the administrator. -/
  sealedGroupKey : Bytes
  deriving DecidableEq, Repr

/-- The key pair of the supergroup and, if wanted, a first administrator. -/
structure Bootstrap where
  /-- The public key of the supergroup. -/
  superPublicKey : Bytes
  /-- The private key of the supergroup, sealed. -/
  superSealedPrivateKey : Bytes
  /-- The first administrator. -/
  admin : Option BootstrapAdmin
  deriving DecidableEq, Repr

namespace Ledger

/-- Whether the supergroup is there. -/
def isInitialized (l : Ledger) : Bool :=
  has l.groups superGroup

/-- Puts a row under a name unless there is one. -/
def addRow (table : Table Bytes Bytes) (name : String) (row : Bytes) : Table Bytes Bytes :=
  if has table name then table else table.insert (utf8 name) row

/-- Adds the built-in groups. -/
def addBuiltinGroups (l : Ledger) (now : Timestamp) (setup : Bootstrap) : Ledger :=
  let default : Group := ⟨defaultGroup, .client, [], [], true, now⟩
  let super : Group :=
    ⟨superGroup, .admin, setup.superPublicKey, setup.superSealedPrivateKey, true, now⟩
  { l with groups := addRow (addRow l.groups defaultGroup default.toJson) superGroup super.toJson }

/-- Adds the first administrator; it is one whatever its kind says. -/
def addAdmin (l : Ledger) (now : Timestamp) (admin : BootstrapAdmin) : Except Error Ledger := do
  let new := admin.principal
  checkName "principal" new.name
  checkPublicKey "principal" new.publicKey
  let p : Principal := ⟨new.name, .admin, new.publicKey, superGroup,
    given (some admin.sealedGroupKey), new.passwordHash, now⟩
  .ok { l with principals := addRow l.principals new.name p.toJson }

/-- Gives the ledger its built-in groups and its first administrator. -/
def bootstrap (l : Ledger) (now : Timestamp) (setup : Bootstrap) : Except Error Ledger := do
  checkPublicKey "supergroup" setup.superPublicKey
  require (!setup.superSealedPrivateKey.isEmpty) .supergroupPrivateKeyRequired
  let l := l.addBuiltinGroups now setup
  match setup.admin with
  | none => .ok l
  | some admin => l.addAdmin now admin

end Ledger

end Strongroom
