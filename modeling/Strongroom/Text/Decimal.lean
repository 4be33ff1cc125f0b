import Strongroom.Text.Blank

/-!
# Decimal numbers in texts

A natural number is written in decimal digits. Reading takes any number of leading zeros and one
plus sign, and refuses numbers that are not below a given bound.
-/

namespace Strongroom.Decimal

/-- Whether a character is a decimal digit. -/
def isDigit (c : Char) : Bool :=
  '0' ≤ c && c ≤ '9'

/-- The value of decimal digits. -/
def value (ds : List Char) : Nat :=
  ds.foldl (fun n d => 10 * n + (d.toNat - 48)) 0

/-- The number below `bound` that digits spell. -/
def ofDigits? (bound : Nat) (ds : List Char) : Option Nat :=
  if ds.isEmpty || !ds.all isDigit then none
  else if value ds < bound then some (value ds) else none

/-- The number below `bound` that characters spell, with or without a plus sign. -/
def ofChars? (bound : Nat) : List Char → Option Nat
  | '+' :: ds => ofDigits? bound ds
  | ds => ofDigits? bound ds

/-- The number below `bound` that a text spells, with or without blanks around it. -/
def ofTrimmed? (bound : Nat) (s : String) : Option Nat :=
  ofChars? bound (Text.trimChars s.toList)

end Strongroom.Decimal
