import Strongroom.Crypto.Argon2
import Strongroom.Crypto.Error

/-!
# Password hashes

The stored hash of a password is a salt followed by the key that Argon2id derives from the password
and the salt. The cost is fixed, so nothing else needs to be stored. The layout of the hash does not
depend on how the key is derived, so it is defined for any derivation.
-/

namespace Strongroom

/-- How passwords are hashed and checked. -/
structure PasswordScheme where
  /-- The stored hash of a password with a salt. -/
  hash : Bytes → Octets 16 → Except CryptoError Bytes
  /-- Whether a password has a stored hash. -/
  verify : (password stored : Bytes) → Except CryptoError Bool

namespace Password

/-- The length of a salt. -/
def saltLength : Nat := 16

/-- The length of a derived key. -/
def derivedLength : Nat := 32

/-- The length of a stored hash. -/
def hashLength : Nat := saltLength + derivedLength

/-- The passwords of a service that derives keys in a given way. There is no hash of an empty
password, and a hash of another length is an error. -/
def schemeBy (derive : Bytes → Bytes → Bytes) : PasswordScheme where
  hash password salt :=
    if password.isEmpty then .error (.invalidInput "password is empty")
    else .ok (salt.bytes ++ derive password salt.bytes)
  verify password stored :=
    if stored.length ≠ hashLength then .error (.invalidInput "malformed password hash")
    else .ok (derive password (stored.take saltLength) = stored.drop saltLength)

/-- The cost of a hash: 19 MiB of memory and two passes. -/
def cost : Argon2.Cost := ⟨19456, 2, derivedLength⟩

/-- The key derived from a password and a salt. -/
def derive (password salt : Bytes) : Bytes :=
  Argon2.hash cost password salt

/-- The passwords of the service. -/
def scheme : PasswordScheme := schemeBy derive

/-- The stored hash of a password with a fresh salt. -/
def hash (password : Bytes) (salt : Octets 16) : Except CryptoError Bytes :=
  scheme.hash password salt

/-- Whether a password has a stored hash. -/
def verify (password stored : Bytes) : Except CryptoError Bool :=
  scheme.verify password stored

end Password

end Strongroom
