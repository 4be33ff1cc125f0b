import Strongroom.Bytes

/-!
# Media types of JSON

A body is taken for JSON if its media type is `application/json` or an `application` type with the
suffix `json`. Letters may have either case, and parameters may follow, which must be well formed.
-/

namespace Strongroom.Http

/-- Whether a character may stand in a token. -/
def isTokenChar (c : Char) : Bool :=
  ('a' ≤ c && c ≤ 'z') || ('A' ≤ c && c ≤ 'Z') || ('0' ≤ c && c ≤ '9') ||
    ['!', '#', '$', '%', '&', '\x27', '*', '+', '-', '.', '^', '_', '\x60', '|', '~'].contains c

/-- Whether a text is a token. -/
def isToken (s : String) : Bool :=
  !s.toList.isEmpty && s.toList.all isTokenChar

/-- Whether a byte may stand in a header value that is read as text. -/
def isVisible (b : UInt8) : Bool :=
  b = 9 || (0x20 ≤ b && b < 0x7f)

/-- Whether a byte may stand in a header value at all. -/
def isHeaderByte (b : UInt8) : Bool :=
  b = 9 || (0x20 ≤ b && b ≠ 0x7f)

/-- A header value as text; only visible ASCII characters, blanks and tabs are. -/
def headerText? (value : Bytes) : Option String :=
  if value.all isVisible then ofUtf8? value else none

namespace ContentType

/-- Whether a character may stand between quotes. -/
def isQuotable (c : Char) : Bool :=
  0x20 ≤ c.toNat && c.toNat ≠ 0x7f

/-- What follows the value of a parameter: nothing, or the next parameters behind a semicolon. -/
def isEnd (next : List Char → Bool) (cs : List Char) : Bool :=
  match cs with
  | [] => true
  | ';' :: rest => next rest
  | _ => false

/-- Whether a value follows, and then what `isEnd` allows. A value between quotes may be followed by
blanks, and its first character may itself be a quote. -/
def isValue (next : List Char → Bool) (cs : List Char) : Bool :=
  match cs with
  | '"' :: c :: rest =>
    isQuotable c &&
      match rest.dropWhile fun c => c ≠ '"' && isQuotable c with
      | '"' :: rest => isEnd next (rest.dropWhile (· = ' '))
      | _ => false
  | _ =>
    let rest := cs.dropWhile isTokenChar
    (rest.isEmpty || rest.length < cs.length) && isEnd next rest

/-- Whether well-formed parameters follow. -/
def isParameters : (fuel : Nat) → List Char → Bool
  | 0, _ => true
  | fuel + 1, cs =>
    match cs.dropWhile (· = ' ') with
    | [] => true
    | c :: rest =>
      isTokenChar c &&
        match rest.dropWhile isTokenChar with
        | '=' :: value => isValue (isParameters fuel) value
        | _ => false

/-- The part before the last plus sign, and the part behind it if there is one. A plus sign in front
of everything does not count. -/
def cutSuffix (subtype : List Char) : List Char × Option (List Char) :=
  let suffix := (subtype.reverse.takeWhile (· ≠ '+')).reverse
  let front := subtype.take (subtype.length - suffix.length - 1)
  if suffix.length < subtype.length && !front.isEmpty then (front, some suffix) else (subtype, none)

/-- Whether a media type is one of JSON. -/
def isJson (value : Bytes) : Bool :=
  match headerText? value with
  | none => false
  | some text =>
    let cs := text.toList.map Char.toLower
    let type := cs.takeWhile isTokenChar
    match cs.dropWhile isTokenChar with
    | '/' :: rest =>
      let subtype := rest.takeWhile isTokenChar
      let wellFormed := match rest.dropWhile isTokenChar with
        | [] => true
        | ';' :: rest => !subtype.isEmpty && isParameters (rest.length + 1) rest
        | _ => false
      let (front, suffix) := cutSuffix subtype
      wellFormed && type = "application".toList &&
        (front = "json".toList || suffix = some "json".toList)
    | _ => false

end ContentType

end Strongroom.Http
