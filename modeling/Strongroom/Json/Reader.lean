import Strongroom.Json.Magnitude
import Strongroom.Json.Writer

/-!
# Reading JSON

A reader takes the front of a byte string and leaves the rest. It works from left to right and stops
at the first thing that is wrong, so of two faults the earlier one decides: the text is malformed,
a value is of the wrong kind, or the text ends too early. Reading is lenient in what JSON allows
(blanks, escapes, order) and strict in all else.

A value that nobody asked for is skipped. An ignored value may nest to any depth and may hold texts
that are no Unicode; a kept value, whose kind is decided later, may not (`Care`).

A loop takes one byte at least in every round. So that it ends in plain sight it is given a `bound`,
a byte string that is at least as long as what is left to read, and drops a byte of it in each
round; the text itself will do.
-/

namespace Strongroom.Json

/-- Why a byte string cannot be read as a value of some type. -/
inductive Cause where
  /-- It is no JSON. -/
  | malformed
  /-- A value has the wrong kind, a member is missing or stands twice. -/
  | mistyped
  /-- It ends inside a value. -/
  | truncated
  deriving DecidableEq, Repr

/-- The outcome of a reader: a value and the bytes behind it. -/
abbrev Read (α : Type) := Except Cause (α × Bytes)

/-- The blanks between tokens. -/
def isBlank (b : UInt8) : Bool :=
  b = 0x20 || b = 0x0a || b = 0x09 || b = 0x0d

/-- Leaves out leading blanks. -/
def skipBlanks (bs : Bytes) : Bytes :=
  bs.dropWhile isBlank

/-- Whether a byte is a decimal digit. -/
def isDigit (b : UInt8) : Bool :=
  ascii '0' ≤ b && b ≤ ascii '9'

/-- Reads the rest of a word such as `null`. -/
def word : (expected : Bytes) → Bytes → Except Cause Bytes
  | [], bs => .ok bs
  | _ :: _, [] => .error .truncated
  | e :: expected, b :: bs => if b = e then word expected bs else .error .malformed

/-! ### Texts -/

/-- The value of a hexadecimal digit. -/
def hexValue? (b : UInt8) : Option Nat :=
  if ascii '0' ≤ b ∧ b ≤ ascii '9' then some (b.toNat - 48)
  else if ascii 'a' ≤ b ∧ b ≤ ascii 'f' then some (b.toNat - 87)
  else if ascii 'A' ≤ b ∧ b ≤ ascii 'F' then some (b.toNat - 55)
  else none

/-- Reads four hexadecimal digits. -/
def hexQuad : Bytes → Read Nat
  | a :: b :: c :: d :: rest =>
    match hexValue? a, hexValue? b, hexValue? c, hexValue? d with
    | some a, some b, some c, some d => .ok (((a * 16 + b) * 16 + c) * 16 + d, rest)
    | _, _, _, _ => .error .malformed
  | _ => .error .truncated

/-- The byte that a short escape stands for. -/
def shortEscape? (b : UInt8) : Option UInt8 :=
  if b = ascii '"' ∨ b = ascii '\\' ∨ b = ascii '/' then some b
  else if b = ascii 'b' then some 0x08
  else if b = ascii 'f' then some 0x0c
  else if b = ascii 'n' then some 0x0a
  else if b = ascii 'r' then some 0x0d
  else if b = ascii 't' then some 0x09
  else none

/-- The UTF-8 bytes of a code point that is no surrogate. -/
def codePoint (n : Nat) : Bytes :=
  String.utf8EncodeChar (Char.ofNat n)

/-- Reads the second half of a pair of surrogates, whose first half was `high`. -/
def lowSurrogate (high : Nat) : Bytes → Except Cause (Bytes × Bytes)
  | [] => .error .truncated
  | b :: rest =>
    if b ≠ ascii '\\' then .error .malformed
    else match rest with
      | [] => .error .truncated
      | c :: rest =>
        if c ≠ ascii 'u' then .error .malformed
        else do
          let (low, rest) ← hexQuad rest
          if low < 0xdc00 ∨ 0xdfff < low then .error .malformed
          else .ok (codePoint ((high - 0xd800) * 0x400 + (low - 0xdc00) + 0x10000), rest)

/-- Reads an escape behind its backslash and gives the bytes that it stands for. -/
def escape : Bytes → Except Cause (Bytes × Bytes)
  | [] => .error .truncated
  | b :: rest =>
    if b = ascii 'u' then do
      let (n, rest) ← hexQuad rest
      if 0xdc00 ≤ n ∧ n ≤ 0xdfff then .error .malformed
      else if 0xd800 ≤ n ∧ n ≤ 0xdbff then lowSurrogate n rest
      else .ok (codePoint n, rest)
    else match shortEscape? b with
      | some b => .ok ([b], rest)
      | none => .error .malformed

/-- Reads the bytes of a text up to and with its closing quote; `read` holds the bytes so far, last
first. -/
def quotedOnto : (bound read : Bytes) → Bytes → Read Bytes
  | _, _, [] => .error .truncated
  | [], _, _ :: _ => .error .truncated
  | _ :: bound, read, b :: rest =>
    if b = ascii '"' then .ok (read.reverse, rest)
    else if b = ascii '\\' then
      match escape rest with
      | .ok (decoded, rest) => quotedOnto bound (decoded.reverseAux read) rest
      | .error e => .error e
    else if b < 0x20 then .error .malformed
    else quotedOnto bound (b :: read) rest

/-- Reads a text behind its opening quote. -/
def quoted (bs : Bytes) : Except Cause (String × Bytes) := do
  let (content, rest) ← quotedOnto bs [] bs
  match ofUtf8? content with
  | some s => .ok (s, rest)
  | none => .error .malformed

/-- Skips a text behind its opening quote; its escapes must be escapes, but it need not be
Unicode. -/
def skipQuoted : (bound : Bytes) → Bytes → Except Cause Bytes
  | _, [] => .error .truncated
  | [], _ :: _ => .error .truncated
  | _ :: bound, b :: rest =>
    if b = ascii '"' then .ok rest
    else if b = ascii '\\' then
      match rest with
      | [] => .error .truncated
      | c :: rest =>
        if c = ascii 'u' then
          match hexQuad rest with
          | .ok (_, rest) => skipQuoted bound rest
          | .error e => .error e
        else if (shortEscape? c).isSome then skipQuoted bound rest
        else .error .malformed
    else if b < 0x20 then .error .malformed
    else skipQuoted bound rest

/-! ### Numbers -/

/-- The digits at the front of a byte string, and the rest. -/
def digits (bs : Bytes) : Bytes × Bytes :=
  bs.span isDigit

/-- The value of decimal digits. -/
def digitsValue (ds : Bytes) : Nat :=
  ds.foldl (fun n d => 10 * n + (d.toNat - 48)) 0

/-- The value of an exponent's digits; beyond ten digits its size does not matter. -/
def exponentValue (ds : Bytes) : Nat :=
  let significant := ds.dropWhile (· = ascii '0')
  if significant.length > 10 then 10000000000 else digitsValue significant

/-- Reads the fraction of a number, if it has one, and gives its digits. -/
def fraction : Bytes → Read Bytes
  | b :: rest =>
    if b = ascii '.' then
      match digits rest with
      | ([], []) => .error .truncated
      | ([], _ :: _) => .error .malformed
      | (ds, rest) => .ok (ds, rest)
    else .ok ([], b :: rest)
  | [] => .ok ([], [])

/-- Leaves out a sign and tells whether it was a minus. -/
def exponentSign : Bytes → Bool × Bytes
  | b :: rest =>
    if b = ascii '+' then (false, rest)
    else if b = ascii '-' then (true, rest)
    else (false, b :: rest)
  | [] => (false, [])

/-- Reads the exponent of a number, if it has one. -/
def exponent : Bytes → Read (Option Int)
  | b :: rest =>
    if b = ascii 'e' ∨ b = ascii 'E' then
      let (negative, rest) := exponentSign rest
      match digits rest with
      | ([], []) => .error .truncated
      | ([], _ :: _) => .error .malformed
      | (ds, rest) =>
        let n : Int := exponentValue ds
        .ok (some (if negative then -n else n), rest)
    else .ok (none, b :: rest)
  | [] => .ok (none, [])

/-- Reads the whole part of a number: a lone zero, or digits that start with another one. -/
def wholeDigits : Bytes → Read Bytes
  | [] => .error .truncated
  | b :: rest =>
    if b = ascii '0' then
      match rest with
      | c :: _ => if isDigit c then .error .malformed else .ok ([b], rest)
      | [] => .ok ([b], [])
    else if isDigit b then .ok (digits (b :: rest))
    else .error .malformed

/-- Reads a number. It has a value if it is written as a natural number below `2 ^ 64`. -/
def numeral (bs : Bytes) : Except Cause (Option Nat × Bytes) := do
  let (negative, bs) := match bs with
    | b :: rest => if b = ascii '-' then (true, rest) else (false, bs)
    | [] => (false, [])
  let (whole, bs) ← wholeDigits bs
  let (fractional, bs) ← fraction bs
  let (power, bs) ← exponent bs
  let magnitude := (Magnitude.ofDigits whole fractional).scale (power.getD 0)
  if magnitude.isTooLarge then .error .malformed
  else if negative ∨ ¬ fractional.isEmpty ∨ power.isSome ∨ magnitude.exponent ≠ 0 then
    .ok (none, bs)
  else .ok (some magnitude.significand, bs)

/-- Skips a number of any size. Where it ends too early it is malformed rather than truncated. -/
def skipNumeral (bs : Bytes) : Except Cause Bytes :=
  let bs := match bs with
    | b :: rest => if b = ascii '-' then rest else bs
    | [] => []
  let scan : Except Cause Bytes := do
    let (_, bs) ← wholeDigits bs
    let (_, bs) ← fraction bs
    let (_, bs) ← exponent bs
    .ok bs
  match scan with
  | .ok rest => .ok rest
  | .error _ => .error .malformed

/-! ### Values of the wrong kind -/

/-- The cause to report for a value of the wrong kind that starts at the front of a byte string: a
scalar is read first, so it may turn out to be malformed. -/
def unexpected : Bytes → Cause
  | [] => .malformed
  | b :: rest =>
    let after {α : Type} : Except Cause α → Cause
      | .ok _ => .mistyped
      | .error e => e
    if b = ascii 'n' then after (word (utf8 "ull") rest)
    else if b = ascii 't' then after (word (utf8 "rue") rest)
    else if b = ascii 'f' then after (word (utf8 "alse") rest)
    else if b = ascii '-' ∨ isDigit b then after (numeral (b :: rest))
    else if b = ascii '"' then after (quoted rest)
    else if b = ascii '[' ∨ b = ascii '\x7b' then .mistyped
    else .malformed

/-! ### Skipping whole values -/

/-- How carefully a value is skipped. -/
inductive Care where
  /-- Nobody wants the value. -/
  | ignored
  /-- The value is kept for later: its texts must be Unicode, its numbers in range, and it may open
  at most `room` levels. -/
  | kept (room : Nat)

/-- A list or an object that has been opened and not closed. -/
inductive Frame where
  | list
  | object
  deriving DecidableEq

/-- The byte that closes a frame. -/
def Frame.close : Frame → UInt8
  | .list => ascii ']'
  | .object => ascii '\x7d'

/-- Skips a text behind its opening quote. -/
def Care.skipText (care : Care) (bs : Bytes) : Except Cause Bytes :=
  match care with
  | .ignored => skipQuoted bs bs
  | .kept _ => (quoted bs).map (·.2)

/-- Skips a number. -/
def Care.skipNumber (care : Care) (bs : Bytes) : Except Cause Bytes :=
  match care with
  | .ignored => skipNumeral bs
  | .kept _ => (numeral bs).map (·.2)

/-- Whether one more frame may be opened. -/
def Care.mayOpen (care : Care) (frames : List Frame) : Bool :=
  match care with
  | .ignored => true
  | .kept room => frames.length < room

/-- What is expected next while a value is skipped. -/
inductive Place where
  /-- A value. -/
  | value
  /-- The name of a member. -/
  | member
  /-- The end of the innermost frame, or a comma and one more item. -/
  | continued

/-- What starts an item of a frame. -/
def Frame.item : Frame → Place
  | .list => .value
  | .object => .member

/-- Skips the rest of a value inside the frames that are open, innermost first. -/
def skipWithin (care : Care) : (bound : Bytes) → Place → List Frame → Bytes → Except Cause Bytes
  | _, .continued, [], bs => .ok bs
  | [], _, _, _ => .error .truncated
  | _ :: bound, place, frames, bs =>
    match place, frames, skipBlanks bs with
    | .continued, [], _ => .ok bs
    | _, _, [] => .error .truncated
    | .value, frames, b :: rest =>
      let go (after : Except Cause Bytes) : Except Cause Bytes :=
        match after with
        | .ok rest => skipWithin care bound .continued frames rest
        | .error e => .error e
      if b = ascii 'n' then go (word (utf8 "ull") rest)
      else if b = ascii 't' then go (word (utf8 "rue") rest)
      else if b = ascii 'f' then go (word (utf8 "alse") rest)
      else if b = ascii '-' ∨ isDigit b then go (care.skipNumber (b :: rest))
      else if b = ascii '"' then go (care.skipText rest)
      else if b = ascii '[' ∨ b = ascii '\x7b' then
        if care.mayOpen frames then
          let frame : Frame := if b = ascii '[' then .list else .object
          match skipBlanks rest with
          | [] => .error .truncated
          | c :: rest =>
            if c = frame.close then skipWithin care bound .continued frames rest
            else skipWithin care bound frame.item (frame :: frames) (c :: rest)
        else .error .malformed
      else .error .malformed
    | .member, frames, b :: rest =>
      if b ≠ ascii '"' then .error .malformed
      else match care.skipText rest with
        | .error e => .error e
        | .ok rest =>
          match skipBlanks rest with
          | [] => .error .truncated
          | c :: rest =>
            if c = ascii ':' then skipWithin care bound .value frames rest else .error .malformed
    | .continued, frame :: frames, b :: rest =>
      if b = frame.close then skipWithin care bound .continued frames rest
      else if b = ascii ',' then skipWithin care bound frame.item (frame :: frames) rest
      else .error .malformed

/-- Skips a value. -/
def skip (care : Care) (bs : Bytes) : Except Cause Bytes :=
  skipWithin care bs .value [] bs

/-! ### Readers of typed values -/

/-- Reads a text. -/
def readText (bs : Bytes) : Read String :=
  match skipBlanks bs with
  | [] => .error .truncated
  | b :: rest => if b = ascii '"' then quoted rest else .error (unexpected (b :: rest))

/-- Reads a truth value. -/
def readBool (bs : Bytes) : Read Bool :=
  match skipBlanks bs with
  | [] => .error .truncated
  | b :: rest =>
    if b = ascii 't' then (word (utf8 "rue") rest).map (true, ·)
    else if b = ascii 'f' then (word (utf8 "alse") rest).map (false, ·)
    else .error (unexpected (b :: rest))

/-- Reads a number below 256. -/
def readByte (bs : Bytes) : Read UInt8 :=
  match skipBlanks bs with
  | [] => .error .truncated
  | b :: rest =>
    if b = ascii '-' ∨ isDigit b then
      match numeral (b :: rest) with
      | .ok (some n, rest) => if n < 256 then .ok (UInt8.ofNat n, rest) else .error .mistyped
      | .ok (none, _) => .error .mistyped
      | .error e => .error e
    else .error (unexpected (b :: rest))

/-- Reads `null` as none and any other value as some value. -/
def readOptional {α : Type} (read : Bytes → Read α) (bs : Bytes) : Read (Option α) :=
  match skipBlanks bs with
  | b :: rest =>
    if b = ascii 'n' then (word (utf8 "ull") rest).map (none, ·)
    else (read (b :: rest)).map fun (a, rest) => (some a, rest)
  | [] => (read []).map fun (a, rest) => (some a, rest)

/-- Reads `null`. -/
def readNull (bs : Bytes) : Read Unit :=
  match skipBlanks bs with
  | [] => .error .truncated
  | b :: rest =>
    if b = ascii 'n' then (word (utf8 "ull") rest).map ((), ·)
    else .error (unexpected (b :: rest))

/-- Looks for the next item of a list: behind a comma unless it is the first. It is not there where
the list ends, and the end is left to read. -/
def nextItem (first : Bool) (bs : Bytes) : Read Bool :=
  match skipBlanks bs with
  | [] => .error .truncated
  | b :: rest =>
    if b = ascii ']' then .ok (false, b :: rest)
    else if first then .ok (true, b :: rest)
    else if b = ascii ',' then
      match skipBlanks rest with
      | [] => .error .truncated
      | c :: rest => if c = ascii ']' then .error .malformed else .ok (true, c :: rest)
    else .error .malformed

/-- Reads the end of a list. -/
def endList (bs : Bytes) : Except Cause Bytes :=
  match skipBlanks bs with
  | [] => .error .truncated
  | b :: rest => if b = ascii ']' then .ok rest else .error .malformed

/-- Reads the items of a list behind its opening bracket; `items` holds those read, last first. -/
def itemsOnto {α : Type} (read : Bytes → Read α) :
    (bound : Bytes) → (first : Bool) → (items : List α) → Bytes → Read (List α)
  | [], _, _, _ => .error .truncated
  | _ :: bound, first, items, bs =>
    match nextItem first bs with
    | .error e => .error e
    | .ok (false, rest) => (endList rest).map (items.reverse, ·)
    | .ok (true, rest) =>
      match read rest with
      | .error e => .error e
      | .ok (item, rest) => itemsOnto read bound false (item :: items) rest

/-- Reads a list of values of one type. -/
def readList {α : Type} (read : Bytes → Read α) (bs : Bytes) : Read (List α) :=
  match skipBlanks bs with
  | [] => .error .truncated
  | b :: rest =>
    if b = ascii '[' then itemsOnto read rest true [] rest
    else .error (unexpected (b :: rest))

/-- Reads a list of numbers below 256. -/
def readBytes (bs : Bytes) : Read Bytes :=
  readList readByte bs

/-- Looks for the name of the next member of an object. There is none where the object ends, and the
end is left to read. -/
def nextMember (first : Bool) (bs : Bytes) : Read (Option String) :=
  let name (b : UInt8) (rest : Bytes) : Read (Option String) :=
    if b = ascii '"' then (quoted rest).map fun (s, rest) => (some s, rest) else .error .malformed
  match skipBlanks bs with
  | [] => .error .truncated
  | b :: rest =>
    if b = ascii '\x7d' then .ok (none, b :: rest)
    else if first then name b rest
    else if b = ascii ',' then
      match skipBlanks rest with
      | [] => .error .truncated
      | c :: rest => name c rest
    else .error .malformed

/-- Reads the colon between the name of a member and its value. -/
def colon (bs : Bytes) : Except Cause Bytes :=
  match skipBlanks bs with
  | [] => .error .truncated
  | b :: rest => if b = ascii ':' then .ok rest else .error .malformed

/-- Reads the end of an object. -/
def endObject (bs : Bytes) : Except Cause Bytes :=
  match skipBlanks bs with
  | [] => .error .truncated
  | b :: rest => if b = ascii '\x7d' then .ok rest else .error .malformed

/-- The value with the given name. -/
def choose {α : Type} (named? : String → Option α) (name : String) : Except Cause α :=
  match named? name with
  | some a => .ok a
  | none => .error .mistyped

/-- Reads one of several named values: its name as a text. -/
def readTag {α : Type} (named? : String → Option α) (bs : Bytes) : Except Cause (α × Bytes) := do
  let (name, rest) ← readText bs
  .ok (← choose named? name, rest)

/-- Reads one of several named values: its name as a text, or an object whose only member has that
name and the value `null`. Anything else is malformed. -/
def readName {α : Type} (named? : String → Option α) (bs : Bytes) : Except Cause (α × Bytes) :=
  match skipBlanks bs with
  | [] => .error .truncated
  | b :: rest =>
    if b = ascii '"' then do
      let (name, rest) ← quoted rest
      .ok (← choose named? name, rest)
    else if b = ascii '\x7b' then
      match skipBlanks rest with
      | [] => .error .truncated
      | c :: rest =>
        if c = ascii '"' then do
          let (name, rest) ← quoted rest
          let a ← choose named? name
          let (_, rest) ← readNull (← colon rest)
          .ok (a, ← endObject rest)
        else .error .malformed
    else .error .malformed

/-- Reads a whole byte string as one value, with nothing but blanks behind it. -/
def readAll {α : Type} (read : Bytes → Read α) (bs : Bytes) : Except Cause α := do
  let (a, rest) ← read bs
  if (skipBlanks rest).isEmpty then .ok a else .error .malformed

end Strongroom.Json
