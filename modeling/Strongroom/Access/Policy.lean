import Strongroom.Ledger.Secrets

/-!
# Policies

What a caller must be to have a request served. The policy of a request depends on its method and on
the pattern of its route; a request that the table does not list needs a session and nothing else.
-/

namespace Strongroom

/-- A condition on the present state of the ledger. -/
inductive AclRule where
  /-- The caller can open a wrap of the secret that the path names. -/
  | secretReadable
  deriving DecidableEq, Repr

/-- What is checked before a request is served. -/
structure Policy where
  /-- The request must belong to a session. -/
  authRequired : Bool
  /-- The caller must be an administrator. -/
  adminOnly : Bool
  /-- The caller must be in the supergroup. -/
  superOnly : Bool
  /-- The condition on the ledger, if there is one. -/
  acl : Option AclRule
  deriving DecidableEq, Repr

namespace Policy

/-- Everybody is served. -/
def everybody : Policy := ⟨false, false, false, none⟩

/-- Whoever has a session is served. -/
def authenticated : Policy := { everybody with authRequired := true }

/-- Administrators are served. -/
def administrators : Policy := { authenticated with adminOnly := true }

/-- Members of the supergroup are served. -/
def superusers : Policy := { authenticated with superOnly := true }

/-- A policy with a condition on the ledger. -/
def withAcl (p : Policy) (rule : AclRule) : Policy := { p with acl := some rule }

instance : Inhabited Policy := ⟨everybody⟩

/-- The policy of readers of a secret. -/
def readers : Policy := authenticated.withAcl .secretReadable

/-- The policy for a method and the pattern of a route. -/
def of (method pattern : String) : Policy :=
  match method, pattern with
  | "POST", "/v1/auth" => everybody
  | "GET", "/v1/keys/\x7bname\x7d" => readers
  | "PUT", "/v1/keys/\x7bname\x7d/users/\x7buser\x7d" => readers
  | "DELETE", "/v1/keys/\x7bname\x7d" => administrators
  | "PUT", "/v1/keys/\x7bname\x7d/groups/\x7bgroup\x7d" => administrators
  | "DELETE", "/v1/keys/\x7bname\x7d/groups/\x7bgroup\x7d" => administrators
  | "DELETE", "/v1/keys/\x7bname\x7d/users/\x7buser\x7d" => administrators
  | "GET", "/v1/admin/keys" => administrators
  | "POST", "/v1/groups" => superusers
  | "DELETE", "/v1/groups/\x7bname\x7d" => superusers
  | "POST", "/v1/users" => administrators
  | "DELETE", "/v1/users/\x7bname\x7d" => administrators
  | "PUT", "/v1/users/\x7bname\x7d/group" => superusers
  | _, _ => authenticated

end Policy

/-- Whether a rule lets a caller have the secret `target`. -/
def AclRule.permits (rule : AclRule) (l : Ledger) (caller : Identity) (target : String) :
    Except Ledger.Error Bool :=
  match rule with
  | secretReadable => l.canRead caller.name target

end Strongroom
