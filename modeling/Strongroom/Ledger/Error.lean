import Strongroom.Ledger.Record

/-!
# Why the ledger refuses

Every refusal has a cause, and a cause has a kind, which decides how the service answers, and a
detail in words.
-/

namespace Strongroom

/-- What a ledger operation speaks of. -/
inductive Subject where
  | principal (name : String)
  | group (name : String)
  | secret (name : String)
  /-- A wrap of a secret for a recipient. -/
  | wrap (secret : String) (recipient : Recipient)
  deriving DecidableEq, Repr

/-- A subject in words. -/
def Subject.describe : Subject → String
  | principal name => "principal " ++ name
  | group name => "group " ++ name
  | secret name => "secret " ++ name
  | wrap name r => "wrap of secret " ++ name ++ " for " ++ r.describe

/-- A recipient as the subject of an operation. -/
def Recipient.subject : Recipient → Subject
  | principal name => .principal name
  | group name => .group name

/-- The kind of a refusal. -/
inductive RefusalKind where
  /-- The arguments are no good. -/
  | invalidInput
  /-- Something that the operation speaks of is not there. -/
  | notFound
  /-- The name is taken. -/
  | duplicateName
  /-- Nobody may do this. -/
  | forbidden
  /-- A stored row cannot be read. -/
  | corruptRow
  deriving DecidableEq, Repr

/-- A kind of refusal and its detail in words. -/
def RefusalKind.describe (detail : String) : RefusalKind → String
  | invalidInput => "invalid input: " ++ detail
  | notFound => "not found: " ++ detail
  | duplicateName => "already exists: " ++ detail
  | forbidden => "forbidden: " ++ detail
  | corruptRow => "corrupt row"

namespace Ledger

/-- Why the ledger refuses an operation. -/
inductive Error where
  /-- The name is empty. -/
  | nameRequired (what : String)
  /-- The name is too long or holds a control character or a slash. -/
  | nameNotAllowed (what : String)
  /-- The public key has a length other than 32. -/
  | publicKeyLength (what : String)
  /-- A secret cannot be created under the name of a built-in group. -/
  | reservedSecret (name : String)
  /-- The sealed private key of the supergroup is empty. -/
  | supergroupPrivateKeyRequired
  /-- The sealed private key of the group is empty. -/
  | groupPrivateKeyRequired
  /-- The payload is empty. -/
  | payloadRequired
  /-- The key sealed for the supergroup is empty. -/
  | supergroupKeyRequired
  /-- The key sealed for the creator is missing and the creator is not in the supergroup. -/
  | creatorKeyRequired
  /-- The default group is no recipient. -/
  | defaultGroupHoldsNothing
  /-- The sealed key of a grant is empty. -/
  | sealedKeyRequired
  /-- The sealed private key of the new group is missing. -/
  | sealedGroupKeyRequired
  /-- The password hash is empty. -/
  | passwordRequired
  /-- The subject is not there. -/
  | notFound (subject : Subject)
  /-- The subject is there already. -/
  | duplicate (subject : Subject)
  /-- The wraps for the supergroup are permanent. -/
  | supergroupWrapPermanent
  /-- Nothing of this name can be deleted, for it is the name of a built-in group. -/
  | secretNameReserved (name : String)
  /-- The group is built in. -/
  | builtinGroup (name : String)
  /-- A stored row cannot be read. -/
  | corruptRow
  deriving DecidableEq, Repr

/-- The length of a public key. -/
def publicKeyLength : Nat := 32

namespace Error

/-- The kind of an error. -/
def kind : Error → RefusalKind
  | notFound _ => .notFound
  | duplicate _ => .duplicateName
  | supergroupWrapPermanent => .forbidden
  | secretNameReserved _ => .forbidden
  | builtinGroup _ => .forbidden
  | corruptRow => .corruptRow
  | _ => .invalidInput

/-- The detail of an error in words. -/
def detail : Error → String
  | nameRequired what => what ++ " name is required"
  | nameNotAllowed what => what ++ " name is not allowed"
  | publicKeyLength what =>
    what ++ " public key must be " ++ toString Ledger.publicKeyLength ++ " bytes"
  | reservedSecret name => "secret name " ++ name ++ " is reserved"
  | supergroupPrivateKeyRequired => "sealed supergroup private key is required"
  | groupPrivateKeyRequired => "sealed group private key is required"
  | payloadRequired => "secret payload is required"
  | supergroupKeyRequired => "supergroup key is required"
  | creatorKeyRequired => "creator key is required"
  | defaultGroupHoldsNothing => "the default group cannot hold secrets"
  | sealedKeyRequired => "sealed key is required"
  | sealedGroupKeyRequired => "sealed group key is required"
  | passwordRequired => "password is required"
  | notFound subject => subject.describe
  | duplicate subject => subject.describe
  | supergroupWrapPermanent => "the supergroup wrap cannot be revoked"
  | secretNameReserved name => "secret name " ++ name ++ " is reserved"
  | builtinGroup name => "group " ++ name ++ " is built in"
  | corruptRow => ""

/-- An error in words. -/
def describe (e : Error) : String :=
  e.kind.describe e.detail

end Error

end Ledger

end Strongroom
