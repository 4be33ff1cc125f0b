import Strongroom.Crypto.ChaCha20
import Strongroom.Crypto.Poly1305

/-!
# XChaCha20-Poly1305

Authenticated encryption with a nonce of twenty-four bytes and no associated data. A sealed byte
string is the encrypted one followed by its tag of sixteen bytes.
-/

namespace Strongroom.Aead

/-- The length of a tag. -/
def tagLength : Nat := 16

/-- Whether a byte string is short enough for the cipher, whose blocks are numbered in 32 bits. -/
def fits (b : Bytes) : Bool := b.length / 64 < Nat.pow 2 32 - 1

/-- The key and nonce of the stream cipher, derived from a key and a nonce of twenty-four bytes. -/
def subkey (key : Octets 32) (nonce : Octets 24) : Octets 32 × Octets 12 :=
  (ChaCha20.deriveKey key ⟨nonce.bytes.take 16, by simp [nonce.length_eq]⟩,
    ⟨[0, 0, 0, 0] ++ nonce.bytes.drop 16, by simp [nonce.length_eq]⟩)

/-- The zeros that fill a byte string up to a multiple of sixteen bytes. -/
def padding (b : Bytes) : Bytes :=
  List.replicate ((16 - b.length % 16) % 16) 0

/-- The tag of an encrypted byte string. -/
def tag (key : Octets 32) (nonce : Octets 12) (encrypted : Bytes) : Octets 16 :=
  let oneTime := Octets.ofPadded 32 (ChaCha20.block key nonce 0)
  Poly1305.tag oneTime
    (encrypted ++ padding encrypted ++ littleEndian 8 0 ++ littleEndian 8 encrypted.length)

/-- Encrypts a byte string that is short enough and appends its tag. -/
def encrypt? (key : Octets 32) (nonce : Octets 24) (plain : Bytes) : Option Bytes :=
  let (key, nonce) := subkey key nonce
  let encrypted := ChaCha20.apply key nonce 1 plain
  if fits plain then some (encrypted ++ (tag key nonce encrypted).bytes) else none

/-- Decrypts a byte string that is short enough and whose tag is right. -/
def decrypt? (key : Octets 32) (nonce : Octets 24) (sealed : Bytes) : Option Bytes :=
  let (key, nonce) := subkey key nonce
  let encrypted := sealed.take (sealed.length - tagLength)
  if tagLength ≤ sealed.length ∧ fits encrypted ∧
      sealed.drop (sealed.length - tagLength) = (tag key nonce encrypted).bytes then
    some (ChaCha20.apply key nonce 1 encrypted)
  else none

end Strongroom.Aead
