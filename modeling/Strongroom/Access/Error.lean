import Strongroom.Session.Basic

/-!
# Why a request is not let through

The refusals of the authorizer, with the status and the words of the reply.
-/

namespace Strongroom

/-- Why the authorizer refuses a request. -/
inductive AuthError where
  /-- There is no session id. -/
  | missingSession
  /-- The session id is no number below `2 ^ 64`. -/
  | invalidSessionHeader
  /-- There is no code, or it is not base64. -/
  | invalidMac
  /-- The session is unknown or expired, or the code does not fit. -/
  | sessionInvalid
  /-- The body is too long. -/
  | invalidBody
  /-- The caller is no administrator. -/
  | adminRequired
  /-- The caller is not in the supergroup. -/
  | superRequired
  /-- The condition on the ledger does not hold. -/
  | accessDenied
  /-- The condition on the ledger cannot be decided. -/
  | internal
  deriving DecidableEq, Repr

namespace AuthError

/-- A short name for machines. -/
def code : AuthError → String
  | missingSession => "missing_session"
  | invalidSessionHeader => "invalid_session_header"
  | invalidMac => "invalid_mac"
  | sessionInvalid => "session_invalid"
  | invalidBody => "invalid_body"
  | adminRequired => "admin_required"
  | superRequired => "super_required"
  | accessDenied => "access_denied"
  | internal => "internal_error"

/-- The status of the reply. -/
def status : AuthError → Nat
  | missingSession | invalidSessionHeader | invalidMac | sessionInvalid => 401
  | invalidBody => 400
  | adminRequired | superRequired | accessDenied => 403
  | internal => 500

/-- An error in words. -/
def describe : AuthError → String
  | missingSession => "Session-ID header is required"
  | invalidSessionHeader => "Session-ID header is malformed"
  | invalidMac => "X-AUTH-MAC header is missing or malformed"
  | sessionInvalid => "session invalid"
  | invalidBody => "request body could not be read"
  | adminRequired => "administrator privileges required"
  | superRequired => "supergroup membership required"
  | accessDenied => "access denied"
  | internal => "internal error"

/-- Whatever the sessions refuse, the caller learns that the session is invalid. -/
def ofSession (_ : SessionError) : AuthError := sessionInvalid

end AuthError

end Strongroom
