import Strongroom.Bytes
import Strongroom.Json.Writer

/-!
# Percent-encoding

In a request target a byte may be written as a percent sign and its two hexadecimal digits. Reading
is lenient: a percent sign that is not followed by two digits stands for itself. In a query a plus
sign moreover stands for a blank.
-/

namespace Strongroom.Http

/-- The value of a hexadecimal digit of either case. -/
def hexValue? (b : UInt8) : Option Nat :=
  let n := b.toNat
  if 48 ≤ n && n ≤ 57 then some (n - 48)
  else if 65 ≤ n && n ≤ 70 then some (n - 55)
  else if 97 ≤ n && n ≤ 102 then some (n - 87)
  else none

/-- The byte that two hexadecimal digits spell. -/
def hexByte? (hi lo : UInt8) : Option UInt8 :=
  match hexValue? hi, hexValue? lo with
  | some h, some l => some (UInt8.ofNat (16 * h + l))
  | _, _ => none

/-- The bytes that a percent-encoded byte string stands for. -/
def percentDecode : Bytes → Bytes
  | [] => []
  | [a] => [a]
  | [a, b] => [a, b]
  | a :: hi :: lo :: rest =>
    if a = Json.ascii '%' then
      match hexByte? hi lo with
      | some b => b :: percentDecode rest
      | none => a :: percentDecode (hi :: lo :: rest)
    else a :: percentDecode (hi :: lo :: rest)

/-- The pieces of a byte string between the occurrences of a separator. -/
def splitOn (separator : UInt8) : Bytes → List Bytes
  | [] => [[]]
  | b :: rest =>
    match splitOn separator rest with
    | [] => [[b]]
    | piece :: pieces => if b = separator then [] :: piece :: pieces else (b :: piece) :: pieces

/-- The parts of a byte string before and behind the first occurrence of a separator; there is no
second part if the separator does not occur. -/
def cut (separator : UInt8) : Bytes → Bytes × Option Bytes
  | [] => ([], none)
  | b :: rest =>
    if b = separator then ([], some rest)
    else
      let (before, behind) := cut separator rest
      (b :: before, behind)

/-- The field that a piece of a query stands for: a name and a value. -/
def formField (piece : Bytes) : Bytes × Bytes :=
  let decode (b : Bytes) : Bytes :=
    percentDecode (b.map fun x => if x = Json.ascii '+' then Json.ascii ' ' else x)
  let (name, value) := cut (Json.ascii '=') piece
  (decode name, decode (value.getD []))

/-- The fields of a query in their order. -/
def formFields (query : Bytes) : List (Bytes × Bytes) :=
  ((splitOn (Json.ascii '&') query).filter (!·.isEmpty)).map formField

/-- The truth value that a query gives to a name, which is false if the query does not mention the
name. There is none if the value is neither `true` nor `false`, or if it is given twice. -/
def formFlag? (name : String) (query : Bytes) : Option Bool :=
  match (formFields query).filter fun (n, _) => n = utf8 name with
  | [] => some false
  | [(_, value)] =>
    if value = utf8 "true" then some true else if value = utf8 "false" then some false else none
  | _ => none

end Strongroom.Http
