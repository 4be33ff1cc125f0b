import Strongroom.Bytes

/-!
# Base64

Byte strings travel as base64 text: the standard alphabet, padded to a multiple of four characters.
Reading is strict. The last group must be padded as writing pads it and the bits that padding
leaves over must be zero, so no byte string has two spellings. Both directions walk the groups with
an accumulator; `encodeOnto_append` and `decodeOnto_append` take the accumulator out again.
-/

namespace Strongroom.Base64

/-- The digit of a value below sixty-four. -/
def digit (value : Nat) : Char :=
  if value < 26 then Char.ofNat (value + 65)
  else if value < 52 then Char.ofNat (value - 26 + 97)
  else if value < 62 then Char.ofNat (value - 52 + 48)
  else if value = 62 then '+'
  else '/'

/-- The value of a digit; no other character has one. -/
def value? (c : Char) : Option Nat :=
  if 'A' ≤ c ∧ c ≤ 'Z' then some (c.toNat - 65)
  else if 'a' ≤ c ∧ c ≤ 'z' then some (c.toNat - 97 + 26)
  else if '0' ≤ c ∧ c ≤ '9' then some (c.toNat - 48 + 52)
  else if c = '+' then some 62
  else if c = '/' then some 63
  else none

/-! ### Writing -/

/-- The four digits of a full group of three bytes. -/
def encodeGroup (a b c : UInt8) : List Char :=
  [digit (a.toNat / 4), digit (a.toNat % 4 * 16 + b.toNat / 16),
    digit (b.toNat % 16 * 4 + c.toNat / 64), digit (c.toNat % 64)]

/-- The padded group of two last bytes. -/
def encodePair (a b : UInt8) : List Char :=
  [digit (a.toNat / 4), digit (a.toNat % 4 * 16 + b.toNat / 16), digit (b.toNat % 16 * 4), '=']

/-- The padded group of one last byte. -/
def encodeSingle (a : UInt8) : List Char :=
  [digit (a.toNat / 4), digit (a.toNat % 4 * 16), '=', '=']

/-- The base64 characters of a byte string in front of which stand the characters `written`, given
last first. -/
def encodeOnto (written : List Char) : Bytes → List Char
  | a :: b :: c :: rest => encodeOnto ((encodeGroup a b c).reverseAux written) rest
  | [a, b] => ((encodePair a b).reverseAux written).reverse
  | [a] => ((encodeSingle a).reverseAux written).reverse
  | [] => written.reverse

/-- The base64 characters of a byte string. -/
def encodeChars (b : Bytes) : List Char :=
  encodeOnto [] b

/-- The base64 text of a byte string. -/
def encode (b : Bytes) : String :=
  String.ofList (encodeChars b)

/-! ### Reading -/

/-- The three bytes of four digit values. -/
def decodeGroup (w x y z : Nat) : Bytes :=
  [UInt8.ofNat (w * 4 + x / 16), UInt8.ofNat (x % 16 * 16 + y / 4), UInt8.ofNat (y % 4 * 64 + z)]

/-- The bytes of a last group of four characters: full, or padded with no bits left over. -/
def decodeLast? (w x y z : Char) : Option Bytes := do
  let w ← value? w
  let x ← value? x
  if z = '=' then
    if y = '=' then
      if x % 16 = 0 then some [UInt8.ofNat (w * 4 + x / 16)] else none
    else
      let y ← value? y
      if y % 4 = 0 then
        some [UInt8.ofNat (w * 4 + x / 16), UInt8.ofNat (x % 16 * 16 + y / 4)]
      else none
  else
    let y ← value? y
    let z ← value? z
    some (decodeGroup w x y z)

/-- Reads base64 characters behind the bytes `read`, given last first. -/
def decodeOnto? (read : Bytes) : List Char → Option Bytes
  | [] => some read.reverse
  | [w, x, y, z] => (decodeLast? w x y z).map fun last => (last.reverseAux read).reverse
  | w :: x :: y :: z :: rest =>
    match value? w, value? x, value? y, value? z with
    | some w, some x, some y, some z => decodeOnto? ((decodeGroup w x y z).reverseAux read) rest
    | _, _, _, _ => none
  | _ => none

/-- The byte string that a list of characters spells in strict base64. -/
def decodeChars? (cs : List Char) : Option Bytes :=
  decodeOnto? [] cs

/-- The byte string that a text spells in strict base64, when it spells one. -/
def decode? (text : String) : Option Bytes :=
  decodeChars? text.toList

/-! ### Taking the accumulator out -/

theorem encodeOnto_append (written : List Char) :
    (b : Bytes) → encodeOnto written b = written.reverse ++ encodeChars b
  | [] => by simp [encodeOnto, encodeChars]
  | [a] => by simp [encodeOnto, encodeChars, List.reverseAux_eq]
  | [a, b] => by simp [encodeOnto, encodeChars, List.reverseAux_eq]
  | a :: b :: c :: rest => by
    have h := encodeOnto_append ((encodeGroup a b c).reverseAux written) rest
    have h' := encodeOnto_append ((encodeGroup a b c).reverseAux []) rest
    rw [encodeChars, encodeOnto, h, encodeOnto, h']
    simp [List.reverseAux_eq]

theorem decodeOnto?_append (read : Bytes) :
    (cs : List Char) → decodeOnto? read cs = (decodeChars? cs).map (read.reverse ++ ·)
  | [] => by simp [decodeOnto?, decodeChars?]
  | [_] => by simp [decodeOnto?, decodeChars?]
  | [_, _] => by simp [decodeOnto?, decodeChars?]
  | [_, _, _] => by simp [decodeOnto?, decodeChars?]
  | [w, x, y, z] => by
    simp [decodeOnto?, decodeChars?, List.reverseAux_eq]
  | w :: x :: y :: z :: c :: rest => by
    simp only [decodeChars?, decodeOnto?]
    split
    · rw [decodeOnto?_append, decodeOnto?_append ((decodeGroup _ _ _ _).reverseAux [])]
      simp [List.reverseAux_eq, Function.comp_def]
    · rfl

end Strongroom.Base64
