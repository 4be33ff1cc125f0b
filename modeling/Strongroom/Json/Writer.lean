import Strongroom.Bytes

/-!
# Writing JSON

Written JSON is compact: no blanks, members in the order given. In a text the quote, the backslash
and the controls below a blank are escaped, each by its short form if it has one; every other
character stands for itself.
-/

namespace Strongroom.Json

/-- The byte of an ASCII character. -/
@[inline] def ascii (c : Char) : UInt8 := c.toNat.toUInt8

/-- The lower-case hexadecimal digit of a value below sixteen. -/
def hexDigit (n : Nat) : UInt8 :=
  if n < 10 then UInt8.ofNat (48 + n) else UInt8.ofNat (87 + n)

/-- A byte of a text as it is written between quotes. -/
def escapeByte (b : UInt8) : Bytes :=
  if b = ascii '"' then [ascii '\\', ascii '"']
  else if b = ascii '\\' then [ascii '\\', ascii '\\']
  else if b < 0x20 then
    if b = 0x08 then [ascii '\\', ascii 'b']
    else if b = 0x09 then [ascii '\\', ascii 't']
    else if b = 0x0a then [ascii '\\', ascii 'n']
    else if b = 0x0c then [ascii '\\', ascii 'f']
    else if b = 0x0d then [ascii '\\', ascii 'r']
    else [ascii '\\', ascii 'u', ascii '0', ascii '0', hexDigit (b.toNat / 16),
      hexDigit (b.toNat % 16)]
  else [b]

/-- A text between quotes. -/
def text (s : String) : Bytes :=
  ascii '"' :: (utf8 s).flatMap escapeByte ++ [ascii '"']

/-- A truth value. -/
def bool (b : Bool) : Bytes :=
  utf8 (if b then "true" else "false")

/-- A natural number in decimal digits. -/
def number (n : Nat) : Bytes :=
  utf8 (toString n)

/-- The absent value. -/
def null : Bytes := utf8 "null"

/-- Written items with commas between them. -/
def separated (items : List Bytes) : Bytes :=
  (items.intersperse [ascii ',']).flatten

/-- A list of written items. -/
def list (items : List Bytes) : Bytes :=
  ascii '[' :: separated items ++ [ascii ']']

/-- An object of named written members. -/
def object (members : List (String × Bytes)) : Bytes :=
  ascii '\x7b' :: separated (members.map fun (name, value) => text name ++ ascii ':' :: value) ++
    [ascii '\x7d']

/-- A byte string as the list of its bytes' numbers. -/
def bytes (b : Bytes) : Bytes :=
  list (b.map fun x => number x.toNat)

end Strongroom.Json
