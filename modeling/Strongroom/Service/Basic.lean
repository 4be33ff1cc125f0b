import Strongroom.Access.Authorizer
import Strongroom.Http.Reply
import Strongroom.Ledger.Groups
import Strongroom.Ledger.Principals
import Strongroom.Password
import Strongroom.View

/-!
# The service

The state of the service, and what a request finds around it: the time, the disk, and the values
that have been drawn for it.
-/

namespace Strongroom

/-- The state of the service. -/
structure Service where
  /-- What is stored. -/
  ledger : Ledger
  /-- Who has logged in. -/
  sessions : Sessions

/-- What a request finds around the service. -/
structure Surroundings where
  /-- The time on the clock of the sessions, when credentials have been looked up if need be. -/
  now : Nat
  /-- The time in the records. -/
  time : Timestamp
  /-- Whether the data directory is there, if one is configured. -/
  dataDirectory : Option Bool
  /-- How long it takes to look up credentials. -/
  lookupTime : Nat
  /-- How passwords are hashed and checked. -/
  passwords : PasswordScheme
  /-- The id drawn for a new session. -/
  sessionId : UInt64
  /-- The session key drawn for the request. -/
  sessionKey : SessionKey
  /-- The salt drawn for a new password. -/
  salt : Octets 16
  /-- The id drawn for a request that brings none. -/
  requestId : Bytes

namespace Service

/-- The service with nothing stored and nobody logged in. -/
def empty (config : SessionConfig) : Service := ⟨.empty, .empty config⟩

/-- What an endpoint does: it replies with messages and leaves the service in a new state, or it
replies with a failure and leaves the service as it is. -/
abbrev Outcome := Except Http.Reply (List Bytes × Service)

/-- Fails. -/
def fail {α : Type} (f : Http.Failure) : Except Http.Reply α := .error f.reply

/-- The result of the ledger, or the failure that its refusal is. -/
def ofLedger {α : Type} (r : Except Ledger.Error α) : Except Http.Reply α :=
  r.mapError fun e => (Http.Failure.ofLedger e).reply

/-- The result of the cryptography, or the failure that its error is. -/
def ofCrypto {α : Type} (r : Except CryptoError α) : Except Http.Reply α :=
  r.mapError fun e => (Http.Failure.ofCrypto e).reply

/-- The message in a request. -/
def messageOf {α : Type} (r : Http.Request) (layout : Json.Layout α) : Except Http.Reply α :=
  (r.message layout.read).mapError (·.reply)

/-- The bytes in a field of a message, which is absent if it is empty. -/
def optionalBytes (value field : String) : Except Http.Reply (Option Bytes) :=
  if value.isEmpty then .ok none
  else match Base64.decode? value with
    | none => fail (.badRequest (field ++ " must be base64"))
    | some bytes => .ok (if bytes.isEmpty then none else some bytes)

/-- The bytes in a field of a message, which must not be absent. -/
def requiredBytes (value field : String) : Except Http.Reply Bytes := do
  match ← optionalBytes value field with
  | none => fail (.badRequest (field ++ " is required"))
  | some bytes => .ok bytes

/-- The text in a field of a message, which is absent if it is empty. -/
def optionalText (value : String) : Option String :=
  if value.isEmpty then none else some value

/-- The messages of an endpoint that changes nothing. -/
def answer (s : Service) (items : List Bytes) : Outcome := .ok (items, s)

/-- The one message in words of an endpoint that changes the ledger. -/
def acknowledge (s : Service) (ledger : Ledger) (words : String) : Outcome :=
  .ok ([Message.Response.toJson ⟨words⟩], { s with ledger })

end Service

end Strongroom
