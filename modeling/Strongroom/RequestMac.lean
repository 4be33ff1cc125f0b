import Strongroom.Crypto.Hmac

/-!
# Message authentication codes of requests

A request is authenticated by an HMAC over its context and its body. Each of the two stands behind
its length, so that no two requests look alike to the HMAC.
-/

namespace Strongroom.RequestMac

/-- A byte string behind its length in eight bytes. -/
def measured (b : Bytes) : Bytes :=
  bigEndian 8 b.length ++ b

/-- What is authenticated of a request. -/
def frame (context body : Bytes) : Bytes :=
  measured context ++ measured body

/-- The length of a code. -/
def length : Nat := 32

/-- The code of a request under a key. -/
def compute (key context body : Bytes) : Octets 32 :=
  Hmac.sha256 key (frame context body)

/-- Whether a byte string is the code of a request under a key. -/
def verify (key mac context body : Bytes) : Bool :=
  mac = (compute key context body).bytes

end Strongroom.RequestMac
