import Strongroom.Bytes

/-!
# Magnitudes

How large a number in JSON is. Its digits are kept from the left while they make a significand below
`2 ^ 64`. The digits that find no room count as zeros before the point and are dropped behind it.

A number has to have a value in binary floating point with 64 bits. That value is found in three
roundings: the significand and the power of ten are rounded, and so is the product of what they
gave. Near the upper end of the range this decides, and not which value is nearest to the number.
-/

namespace Strongroom.Json

/-- A number without its sign: a significand below `2 ^ 64` and a power of ten. -/
structure Magnitude where
  /-- The leading digits. -/
  significand : Nat
  /-- The power of ten that the leading digits are multiplied by. -/
  exponent : Int
  deriving DecidableEq, Repr

namespace Magnitude

/-- Writes digits behind a number while it stays below `2 ^ 64`, and gives the digits that found no
room. -/
def extend : Nat → Bytes → Nat × Bytes
  | n, [] => (n, [])
  | n, d :: ds =>
    let longer := 10 * n + (d.toNat - 48)
    if longer < UInt64.size then extend longer ds else (n, d :: ds)

/-- The magnitude with the given digits before and behind the point. -/
def ofDigits (whole fractional : Bytes) : Magnitude :=
  let (n, raised) := extend 0 whole
  let (n, dropped) := extend n fractional
  ⟨n, (raised.length + dropped.length : Int) - fractional.length⟩

/-- A magnitude times a power of ten. -/
def scale (m : Magnitude) (power : Int) : Magnitude :=
  { m with exponent := m.exponent + power }

/-- The number with at most 53 significant bits that is nearest to `n`; of two, the one whose last
bit is zero. -/
def nearest (n : Nat) : Nat :=
  let excess := n.log2 - 52
  let lead := n >>> excess
  let rest := n - lead <<< excess
  let unit := 1 <<< excess
  if unit < 2 * rest ∨ unit = 2 * rest ∧ lead % 2 = 1 then (lead + 1) <<< excess
  else lead <<< excess

/-- The least number that rounds to no binary floating-point number of 64 bits. -/
def limit : Nat := (1 <<< 1024) - (1 <<< 970)

/-- Whether a magnitude has no value in binary floating point with 64 bits. -/
def isTooLarge (m : Magnitude) : Bool :=
  if m.significand = 0 ∨ m.exponent < 0 then false
  else if 308 < m.exponent then true
  else limit ≤ nearest m.significand * nearest (Nat.pow 10 m.exponent.toNat)

/-- A number with at most 53 bits is not rounded. -/
theorem nearest_of_lt {n : Nat} (h : n < 1 <<< 53) : nearest n = n := by
  have hlog : n.log2 - 52 = 0 := by
    rcases Nat.eq_zero_or_pos n with rfl | hn
    · decide
    · have : n.log2 < 53 := (Nat.log2_lt (Nat.ne_of_gt hn)).2 h
      omega
  simp [nearest, hlog]

end Magnitude

end Strongroom.Json
