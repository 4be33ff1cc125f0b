import Strongroom.Bytes

/-!
# X25519

The Diffie-Hellman function of RFC 7748 on the Montgomery curve over the integers modulo
`2 ^ 255 - 19`. Field elements are natural numbers below the prime.
-/

namespace Strongroom.X25519

/-- The prime of the field. -/
def prime : Nat := (1 <<< 255) - 19

/-- Sum in the field. -/
@[inline] def add (x y : Nat) : Nat := (x + y) % prime

/-- Difference in the field. -/
@[inline] def sub (x y : Nat) : Nat := (x + prime - y) % prime

/-- Product in the field. -/
@[inline] def mul (x y : Nat) : Nat := x * y % prime

/-- Power in the field, by repeated squaring. -/
def power (x n : Nat) : Nat :=
  if n = 0 then 1
  else
    let root := power (mul x x) (n / 2)
    if n % 2 = 0 then root else mul x root

/-- The inverse of a field element; zero has zero. -/
def inverse (x : Nat) : Nat := power x (prime - 2)

/-- Two points of the Montgomery ladder in projective coordinates; their difference is the point
that the ladder multiplies. -/
structure Rungs where
  /-- The first coordinate of the lower point. -/
  x2 : Nat
  /-- The second coordinate of the lower point. -/
  z2 : Nat
  /-- The first coordinate of the upper point. -/
  x3 : Nat
  /-- The second coordinate of the upper point. -/
  z3 : Nat

/-- Exchanges the two points when asked to. -/
def Rungs.swap (r : Rungs) : Bool → Rungs
  | true => ⟨r.x3, r.z3, r.x2, r.z2⟩
  | false => r

/-- Doubles the lower point and adds it to the upper one; `u` is their difference. -/
def Rungs.step (u : Nat) (r : Rungs) : Rungs :=
  let a := add r.x2 r.z2
  let aa := mul a a
  let b := sub r.x2 r.z2
  let bb := mul b b
  let e := sub aa bb
  let da := mul (sub r.x3 r.z3) a
  let cb := mul (add r.x3 r.z3) b
  let sum := add da cb
  let difference := sub da cb
  ⟨mul aa bb, mul e (add aa (mul 121665 e)), mul sum sum, mul u (mul difference difference)⟩

/-- The ladder over the lowest `bits` bits of the scalar `k`, highest first. -/
def ladder (k u : Nat) : (bits : Nat) → Rungs → Rungs
  | 0, r => r
  | bits + 1, r =>
    let bit := k.testBit bits
    ladder k u bits (((r.swap bit).step u).swap bit)

/-- The first coordinate of `k` times the point with first coordinate `u`. -/
def multiply (k u : Nat) : Nat :=
  let r := ladder k u 255 ⟨1, 0, u, 1⟩
  mul r.x2 (inverse r.z2)

/-- The scalar that thirty-two bytes stand for: a multiple of eight between `2 ^ 254` and
`2 ^ 255`. -/
def scalar (b : Octets 32) : Nat :=
  let n := ofLittleEndian b.bytes
  n % (1 <<< 254) / 8 * 8 + (1 <<< 254)

/-- The coordinate that thirty-two bytes stand for; the highest bit does not count. -/
def coordinate (b : Octets 32) : Nat :=
  ofLittleEndian b.bytes % (1 <<< 255) % prime

/-- The function X25519: the secret that the holder of `secret` shares with the holder of the secret
behind `point`. -/
def agree (secret point : Octets 32) : Octets 32 :=
  ⟨littleEndian 32 (multiply (scalar secret) (coordinate point)), by simp⟩

/-- The generator of the group. -/
def basePoint : Octets 32 := ⟨littleEndian 32 9, by simp⟩

/-- The public key of a secret. -/
def publicKey (secret : Octets 32) : Octets 32 :=
  agree secret basePoint

end Strongroom.X25519
