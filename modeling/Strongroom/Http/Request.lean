import Strongroom.Http.ContentType
import Strongroom.Http.Target
import Strongroom.Json.Reader

/-!
# Requests

A request as the service gets it, and how a message is taken from its body. The body must say that
it is JSON, must not be too long and must be the JSON of the message.
-/

namespace Strongroom.Http

/-- A request. -/
structure Request where
  method : String
  /-- What the request is about. -/
  target : Target
  /-- The headers in order, names in lower case. -/
  headers : List (String × Bytes)
  body : Bytes
  deriving DecidableEq, Repr

/-- The values of all headers of a name, in order. -/
def Request.header (r : Request) (name : String) : List Bytes :=
  (r.headers.filter (·.1 = name)).map (·.2)

/-- The greatest length of a body that a message is taken from: 2 MiB. -/
def maxMessageLength : Nat := 2 * 1024 * 1024

/-- Why there is no message in a request. -/
inductive NoMessage where
  /-- The body does not say that it is JSON. -/
  | notJson
  /-- The body is too long. -/
  | tooLong
  /-- The body is no JSON. -/
  | malformed
  /-- The body is JSON of another shape. -/
  | mistyped
  deriving DecidableEq, Repr

/-- The message in the body of a request. -/
def Request.message {α : Type} (r : Request) (read : Bytes → Json.Read α) : Except NoMessage α :=
  if !((r.header "content-type").head?.any ContentType.isJson) then .error .notJson
  else if maxMessageLength < r.body.length then .error .tooLong
  else match Json.readAll read r.body with
    | .ok a => .ok a
    | .error .mistyped => .error .mistyped
    | .error _ => .error .malformed

end Strongroom.Http
