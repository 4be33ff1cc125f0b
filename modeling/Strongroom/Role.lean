import Strongroom.Json.Reader

/-!
# Roles

The kind of a principal or of a group.
-/

namespace Strongroom

/-- The kind of a principal or of a group. -/
inductive Role where
  /-- Manages principals, grants and revocations. -/
  | admin
  /-- Holds and fetches the secrets granted to it. -/
  | client
  deriving DecidableEq, Repr

namespace Role

/-- The least privileged role. -/
instance : Inhabited Role := ⟨.client⟩

/-- The name of a role. -/
def name : Role → String
  | admin => "admin"
  | client => "client"

/-- The role with a given name. -/
def ofName? (s : String) : Option Role :=
  if s = "admin" then some admin else if s = "client" then some client else none

theorem ofName?_name (r : Role) : ofName? r.name = some r := by
  cases r <;> decide

/-- The role of an administrator or of someone who is none. -/
def ofAdmin (isAdmin : Bool) : Role :=
  if isAdmin then admin else client

/-- Whether a role is that of an administrator. -/
def isAdmin : Role → Bool
  | admin => true
  | client => false

/-- A role as JSON. -/
def toJson (r : Role) : Bytes := Json.text r.name

/-- Reads a role. -/
def read (bs : Bytes) : Json.Read Role := Json.readName ofName? bs

end Role

end Strongroom
