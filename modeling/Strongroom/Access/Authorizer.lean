import Strongroom.Access.Header
import Strongroom.Access.Policy
import Strongroom.Http.Request

/-!
# The authorizer

Before a guarded request is served, its code is checked against the live key of its session, and
then the policy of its route against the caller. Whatever comes of it after the code has been
accepted, the session gets its next key.
-/

namespace Strongroom.Access

open Http (Request)

/-- Who has sent a request, and in which session. -/
structure Caller where
  /-- The id of the session. -/
  session : UInt64
  /-- Who opened it. -/
  identity : Identity
  deriving DecidableEq, Repr

/-- The greatest length of a body that is authenticated: 16 MiB. -/
def maxBodyLength : Nat := 16 * 1024 * 1024

/-- What a request shows to be authenticated: a session id and a code. -/
def shown (r : Request) : Except AuthError (UInt64 × Bytes) := do
  let id ← sessionId (r.header "session-id")
  let code ← mac (r.header "x-auth-mac")
  if maxBodyLength < r.body.length then .error .invalidBody else .ok (id, code)

/-- Authenticates a request by its code. -/
def authenticate (s : Sessions) (now : Nat) (r : Request) : Except AuthError Caller × Sessions :=
  match shown r with
  | .error e => (.error e, s)
  | .ok (id, code) =>
    match s.validate now id code r.target.context r.body with
    | (.error e, s) => (.error (.ofSession e), s)
    | (.ok identity, s) => (.ok ⟨id, identity⟩, s)

/-- Whether a rule holds for a caller and the secret that a request names. -/
def obeys (rule : AclRule) (l : Ledger) (caller : Identity) (target : Option String) :
    Except AuthError Unit :=
  match target with
  | none => .error .accessDenied
  | some name =>
    match rule.permits l caller name with
    | .ok true => .ok ()
    | .ok false => .error .accessDenied
    | .error _ => .error .internal

/-- Checks a policy against a caller and the name in the path of a request. -/
def permit (policy : Policy) (l : Ledger) (caller : Identity) (target : Option String) :
    Except AuthError Unit :=
  if policy.adminOnly && !caller.admin then .error .adminRequired
  else if policy.superOnly && !caller.superuser then .error .superRequired
  else match policy.acl with
    | none => .ok ()
    | some rule => obeys rule l caller target

end Strongroom.Access
