import Strongroom.Bytes

/-!
# Poly1305

The one-time authenticator of RFC 8439: a polynomial over the integers modulo `2 ^ 130 - 5`,
evaluated at a secret point.
-/

namespace Strongroom.Poly1305

/-- The prime of the field. -/
def prime : Nat := (1 <<< 130) - 5

/-- The point of evaluation: the first half of the key with certain bits cleared. -/
def point (key : Octets 32) : Nat :=
  ofLittleEndian (key.bytes.take 16) &&& 0x0ffffffc0ffffffc0ffffffc0fffffff

/-- Evaluates the polynomial whose coefficients are the blocks of sixteen bytes of `message`, each
with a one behind its last byte. -/
def evaluate (r : Nat) (sum : Nat) (message : Bytes) : Nat :=
  match message with
  | [] => sum
  | b :: rest =>
    let coefficient := ofLittleEndian ((b :: rest).take 16 ++ [1])
    evaluate r ((sum + coefficient) * r % prime) ((b :: rest).drop 16)
termination_by message.length

/-- The tag of a message under a key that is used once. -/
def tag (key : Octets 32) (message : Bytes) : Octets 16 :=
  ⟨littleEndian 16 (evaluate (point key) 0 message + ofLittleEndian (key.bytes.drop 16)), by simp⟩

end Strongroom.Poly1305
