import Strongroom.Access.Error
import Strongroom.Http.ContentType
import Strongroom.Text.Base64
import Strongroom.Text.Decimal

/-!
# The headers that authenticate a request

A request names its session by a decimal number and shows that it belongs to it by a code in base64.
Of several headers of one name the first counts.
-/

namespace Strongroom.Access

/-- The session id in the values of its header. -/
def sessionId (values : List Bytes) : Except AuthError UInt64 :=
  match values with
  | [] => .error .missingSession
  | value :: _ =>
    match (Http.headerText? value).bind (Decimal.ofTrimmed? UInt64.size) with
    | some n => .ok (UInt64.ofNat n)
    | none => .error .invalidSessionHeader

/-- The code in the values of its header. -/
def mac (values : List Bytes) : Except AuthError Bytes :=
  match values with
  | [] => .error .invalidMac
  | value :: _ =>
    match (Http.headerText? value).bind fun text => Base64.decode? (Text.trim text) with
    | some code => .ok code
    | none => .error .invalidMac

end Strongroom.Access
