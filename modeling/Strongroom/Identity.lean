import Strongroom.Json.Writer

/-!
# Identities

Who a caller is, and the two group names that have a meaning of their own.
-/

namespace Strongroom

/-- The group without privileges that every new principal starts in. -/
def defaultGroup : String := "default"

/-- The group with all privileges; its key escrows every secret. -/
def superGroup : String := "super"

/-- Whether a name is that of a built-in group, which no client can create, delete or reuse. -/
def isReserved (name : String) : Bool :=
  name = defaultGroup || name = superGroup

/-- The attributes of an authenticated principal. -/
structure Identity where
  /-- The principal's name. -/
  name : String
  /-- The group that it is in. -/
  group : String
  /-- Whether it is an administrator. -/
  admin : Bool
  /-- Whether it is in the supergroup. -/
  superuser : Bool
  deriving DecidableEq, Repr

namespace Identity

/-- The identity of a principal in a group: those in the supergroup are superusers. -/
def ofGroup (name group : String) (admin : Bool) : Identity :=
  ⟨name, group, admin, group = superGroup⟩

/-- An identity as JSON. -/
def toJson (i : Identity) : Bytes :=
  Json.object [("name", Json.text i.name), ("group", Json.text i.group),
    ("admin", Json.bool i.admin), ("superuser", Json.bool i.superuser)]

end Identity

/-- What a login is checked against. -/
structure Credentials where
  /-- The principal's name. -/
  name : String
  /-- The group that it is in. -/
  group : String
  /-- Whether it is an administrator. -/
  admin : Bool
  /-- The hash of its password. -/
  passwordHash : Bytes
  deriving DecidableEq, Repr

/-- The identity of someone who has shown the credentials. -/
def Credentials.identity (c : Credentials) : Identity :=
  .ofGroup c.name c.group c.admin

end Strongroom
