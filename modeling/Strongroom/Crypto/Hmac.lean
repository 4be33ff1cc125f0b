import Strongroom.Crypto.Sha256

/-!
# HMAC-SHA256 and HKDF-SHA256

The keyed hash of RFC 2104 and the key derivation of RFC 5869, both over SHA-256.
-/

namespace Strongroom

namespace Hmac

/-- The block length of the hash, to which a key is brought. -/
def blockLength : Nat := 64

/-- A key of one block: a longer key is hashed first, a shorter one is filled up with zeros. -/
def blockKey (key : Bytes) : Bytes :=
  let short := if blockLength < key.length then (Sha256.hash key).bytes else key
  (Octets.ofPadded blockLength short).bytes

/-- The HMAC-SHA256 of a message under a key of any length. -/
def sha256 (key message : Bytes) : Octets 32 :=
  let inner := (blockKey key).map (· ^^^ 0x36)
  let outer := (blockKey key).map (· ^^^ 0x5c)
  Sha256.hash (outer ++ (Sha256.hash (inner ++ message)).bytes)

end Hmac

namespace Hkdf

/-- The pseudorandom key extracted from input key material, with no salt. -/
def extract (material : Bytes) : Octets 32 :=
  Hmac.sha256 (List.replicate 32 0) material

/-- The first block of output for the context `info`. -/
def expand (key : Octets 32) (info : Bytes) : Octets 32 :=
  Hmac.sha256 key.bytes (info ++ [1])

/-- The 32-byte key derived from input key material for the context `info`, with no salt. -/
def derive (material info : Bytes) : Octets 32 :=
  expand (extract material) info

end Hkdf

end Strongroom
