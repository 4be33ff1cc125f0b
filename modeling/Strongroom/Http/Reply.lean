import Strongroom.Access.Error
import Strongroom.Http.Request
import Strongroom.Ledger.Error
import Strongroom.Message
import Strongroom.Text.Base64

/-!
# Replies

A reply carries messages or, if the request fails, one plain text. Why a request fails decides about
the status and the words; what has gone wrong inside the service is nobody's business and always
looks the same.
-/

namespace Strongroom.Http

/-- A reply. -/
structure Reply where
  status : Nat
  /-- The media type of the body, if there is a body. -/
  contentType : Option String := none
  body : Bytes := []
  /-- The id of the session that was opened. -/
  sessionId : Option UInt64 := none
  /-- The key for the next request in the session. -/
  sessionKey : Option SessionKey := none
  /-- The methods that the path has, for a method that it does not have. -/
  allow : Option (List String) := none
  /-- The id of the request. -/
  requestId : Option Bytes := none
  deriving DecidableEq

namespace Reply

/-- A reply without a body. -/
def empty (status : Nat) : Reply := { status }

/-- A reply in JSON. -/
def json (status : Nat) (body : Bytes) : Reply :=
  { status, contentType := some "application/json", body }

/-- A reply of plain text. -/
def plain (status : Nat) (text : String) : Reply :=
  { status, contentType := some "text/plain; charset=utf-8", body := utf8 text }

/-- A reply with messages. -/
def messages (items : List Bytes) : Reply :=
  json 200 (Message.body items)

/-- A reply without its body. -/
def withoutBody (r : Reply) : Reply := { r with body := [] }

/-- The headers of a reply that depend on the request. -/
def headers (r : Reply) : List (String × Bytes) :=
  (r.contentType.toList.map fun type => ("content-type", utf8 type)) ++
  (r.sessionId.toList.map fun id => ("session-id", utf8 (toString id.toNat))) ++
  (r.sessionKey.toList.map fun key => ("x-auth-key", utf8 (Base64.encode key.bytes))) ++
  (r.allow.toList.map fun methods => ("allow", utf8 (String.intercalate "," methods))) ++
  (r.requestId.toList.map fun id => ("x-request-id", id))

end Reply

/-- A failed request: the status and the words of the reply. -/
structure Failure where
  status : Nat
  /-- What the caller is told. -/
  message : String
  deriving DecidableEq, Repr

namespace Failure

/-- The request is no good. -/
def badRequest (message : String) : Failure := ⟨400, message⟩

/-- The caller is not known. -/
def unauthorized (message : String) : Failure := ⟨401, message⟩

/-- The caller may not do this. -/
def forbidden (message : String) : Failure := ⟨403, message⟩

/-- What the request speaks of is not there. -/
def notFound (message : String) : Failure := ⟨404, message⟩

/-- Something has gone wrong inside. -/
def internal : Failure := ⟨500, "internal error"⟩

/-- The reply to a failed request. -/
def reply (f : Failure) : Reply :=
  .json f.status (Message.Response.toJson ⟨f.message⟩)

/-- A refusal of the ledger. -/
def ofRefusal (detail : String) : RefusalKind → Failure
  | .invalidInput => badRequest detail
  | .notFound => notFound (detail ++ " not found")
  | .duplicateName => ⟨409, detail ++ " already exists"⟩
  | .forbidden => forbidden detail
  | .corruptRow => internal

/-- An error of the ledger. -/
def ofLedger (e : Ledger.Error) : Failure :=
  ofRefusal e.detail e.kind

/-- An error of the sessions. -/
def ofSession (e : SessionError) : Failure :=
  match e with
  | .authenticationFailed | .sessionInvalid => unauthorized e.describe
  | .credentialsUnavailable => ⟨503, e.describe⟩

/-- An error of the cryptography. -/
def ofCrypto (e : CryptoError) : Failure :=
  match e with
  | .invalidInput _ | .decryptionFailed => badRequest e.describe
  | .failure _ => internal

/-- A refusal of the authorizer. -/
def ofAuth (e : AuthError) : Failure :=
  ⟨e.status, e.describe⟩

end Failure

/-- The reply to a request without a message. -/
def NoMessage.reply : NoMessage → Reply
  | notJson => .plain 415 "Expected request with \x60Content-Type: application/json\x60"
  | tooLong => .plain 413 "Failed to buffer the request body: length limit exceeded"
  | malformed => .plain 400 "Failed to parse the request body as JSON"
  | mistyped => .plain 422 "Failed to deserialize the JSON body into the target type"

end Strongroom.Http
