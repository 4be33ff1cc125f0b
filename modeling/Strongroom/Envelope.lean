import Strongroom.Crypto.Aead
import Strongroom.Crypto.Error
import Strongroom.Crypto.Hmac
import Strongroom.Crypto.X25519
import Strongroom.Wipe

/-!
# Envelopes

An envelope carries a payload from one key pair to another. It consists of a nonce, the sender's
public key and the encrypted payload with its tag. The key of the cipher is derived from the secret
that the two key pairs share and from both public keys, so whoever changes any byte of an envelope,
the sender's key included, makes it unopenable.
-/

namespace Strongroom

/-- A public key. -/
abbrev PublicKey := Octets 32

/-- A nonce of an envelope. -/
abbrev Nonce := Octets 24

/-- A private key with the public key that belongs to it. -/
structure KeyPair where
  /-- The private key as it was given. -/
  secret : Octets 32
  publicKey : PublicKey
  deriving DecidableEq

/-- The public key that thirty-two bytes are. -/
def PublicKey.ofBytes (b : Bytes) : Except CryptoError PublicKey :=
  match Octets.ofBytes? 32 b with
  | some key => .ok key
  | none => .error (.invalidInput "public key must be 32 bytes")

namespace KeyPair

/-- The key pair of a private key. -/
def ofSecret (secret : Octets 32) : KeyPair :=
  ⟨secret, X25519.publicKey secret⟩

/-- The key pair of the private key in a buffer, which is wiped. -/
def ofBytes (buffer : Bytes) : Guarded (Except CryptoError KeyPair) :=
  Borrower.run buffer do
    Borrower.guard
    let bytes ← Borrower.content
    let secret ← Borrower.need (Octets.ofBytes? 32 bytes)
      (.invalidInput "private key must be 32 bytes")
    return ofSecret secret

/-- A key pair for the eyes of a developer: the public key only. -/
def debug (pair : KeyPair) : String :=
  "KeyPair \x7b public: [" ++
    String.intercalate ", " (pair.publicKey.bytes.map fun b => toString b.toNat) ++ "], .. \x7d"

end KeyPair

namespace Envelope

/-- The words that separate the keys of envelopes from keys for other uses. -/
def purpose : Bytes := utf8 "keyhaven-envelope-v1"

/-- What the key of an envelope is bound to: its purpose, its sender and its recipient. -/
def binding (sender recipient : PublicKey) : Bytes :=
  purpose ++ sender.bytes ++ recipient.bytes

/-- The key of an envelope between the holder of `secret` and the owner of `peer`. There is none if
the two share the zero secret, which anybody knows. -/
def key? (secret : Octets 32) (peer sender recipient : PublicKey) : Option (Octets 32) :=
  let shared := X25519.agree secret peer
  if shared = Octets.zero 32 then none
  else some (Hkdf.derive shared.bytes (binding sender recipient))

/-- The length of an envelope around an empty payload: a nonce, a public key and a tag. -/
def minLength : Nat := 24 + 32 + Aead.tagLength

/-- Puts the payload in a buffer into an envelope; the buffer is wiped. -/
def make (buffer : Bytes) (sender : KeyPair) (recipient : PublicKey) (nonce : Nonce) :
    Guarded (Except CryptoError Bytes) :=
  Borrower.run buffer do
    Borrower.guard
    let payload ← Borrower.content
    Borrower.check (!payload.isEmpty) (.invalidInput "payload is empty")
    let key ← Borrower.need (key? sender.secret recipient sender.publicKey recipient)
      (.failure "recipient key is not usable")
    let encrypted ← Borrower.need (Aead.encrypt? key nonce payload) (.failure "encryption failed")
    return nonce.bytes ++ sender.publicKey.bytes ++ encrypted

/-- The payload of an envelope for the holder of a key pair. -/
def unwrap (envelope : Bytes) (recipient : KeyPair) : Except CryptoError Bytes :=
  if envelope.length < minLength then .error (.invalidInput "envelope is too short")
  else
    let nonce : Nonce := Octets.ofPadded 24 envelope
    let sender : PublicKey := Octets.ofPadded 32 (envelope.drop 24)
    match key? recipient.secret sender sender recipient.publicKey with
    | none => .error .decryptionFailed
    | some key =>
      match Aead.decrypt? key nonce (envelope.drop 56) with
      | none => .error .decryptionFailed
      | some payload => .ok payload

end Envelope

end Strongroom
