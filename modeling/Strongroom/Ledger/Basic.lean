import Strongroom.Ledger.Error
import Strongroom.Ledger.Table
import Strongroom.Text.Blank

/-!
# The ledger

The ledger holds principals, groups and secrets under their names, and for every secret the wraps of
its key. A wrap stands under the secret's name, a zero byte and its number, so that the wraps of a
secret are neighbours and in the order in which they were made; the numbers come from one counter
for all secrets. Rows are kept as the bytes that were written and are read again at every use, and a
row that cannot be read makes the operation fail.

Operations that change the ledger give the changed ledger or an error, so one that fails changes
nothing.
-/

namespace Strongroom

/-- The five tables of the ledger, by the bytes of their keys. -/
structure Ledger where
  /-- Principals under their names. -/
  principals : Table Bytes Bytes
  /-- Groups under their names. -/
  groups : Table Bytes Bytes
  /-- Secrets under their names. -/
  secrets : Table Bytes Bytes
  /-- Wraps under the name of the secret, a zero and the wrap's number. -/
  wraps : Table Bytes Bytes
  /-- The last number that was used, under the name of the counter. -/
  counters : Table Bytes UInt64

namespace Ledger

/-- The ledger without rows. -/
def empty : Ledger := ⟨.empty, .empty, .empty, .empty, .empty⟩

instance : Inhabited Ledger := ⟨empty⟩

/-! ### Checks -/

/-- Goes on if a condition holds and fails with an error if it does not. -/
def require (condition : Bool) (e : Error) : Except Error Unit :=
  if condition then .ok () else .error e

/-- The greatest length of a name in bytes. -/
def maxNameLength : Nat := 255

/-- Whether a character may stand in a name. -/
def isNameChar (c : Char) : Bool :=
  !(Text.isControl c || c = '/')

/-- Checks a name: it is not empty, not too long, and free of control characters and slashes. -/
def checkName (what name : String) : Except Error Unit := do
  require (!name.isEmpty) (.nameRequired what)
  require (decide (name.utf8ByteSize ≤ maxNameLength) && name.toList.all isNameChar)
    (.nameNotAllowed what)

/-- Checks the length of a public key. -/
def checkPublicKey (what : String) (key : Bytes) : Except Error Unit :=
  require (key.length = publicKeyLength) (.publicKeyLength what)

/-- A byte string that was given and is not empty. -/
def given (b : Option Bytes) : Option Bytes :=
  b.filter (!·.isEmpty)

/-! ### Rows -/

/-- Reads a row. -/
def decode {α : Type} (layout : Json.Layout α) (row : Bytes) : Except Error α :=
  match Json.readAll layout.read row with
  | .ok a => .ok a
  | .error _ => .error .corruptRow

/-- The row under a name, when there is one. -/
def row? {α : Type} (layout : Json.Layout α) (table : Table Bytes Bytes) (name : String) :
    Except Error (Option α) :=
  match table.get? (utf8 name) with
  | none => .ok none
  | some row => (decode layout row).map some

/-- The row under a name that must be there. -/
def row {α : Type} (layout : Json.Layout α) (table : Table Bytes Bytes) (name : String)
    (subject : Subject) : Except Error α := do
  match ← row? layout table name with
  | some a => .ok a
  | none => .error (.notFound subject)

/-- Whether there is a row under a name. -/
def has (table : Table Bytes Bytes) (name : String) : Bool :=
  table.contains (utf8 name)

/-- All rows of a table, in the order of their keys. -/
def all {α : Type} (layout : Json.Layout α) (table : Table Bytes Bytes) : Except Error (List α) :=
  table.rows.mapM fun (_, row) => decode layout row

/-! ### Wraps -/

/-- The key of a wrap by the name of its secret and its number. -/
def wrapKey (secret : String) (number : UInt64) : Bytes :=
  utf8 secret ++ 0 :: bigEndian 8 number.toNat

/-- The least key that a wrap of a secret can have. -/
def wrapsStart (secret : String) : Bytes := utf8 secret ++ [0]

/-- A bound above the keys of a secret's wraps. No name holds a control character, so no wrap of
another secret lies below it and above `wrapsStart`. -/
def wrapsEnd (secret : String) : Bytes := utf8 secret ++ [1]

/-- The rows of the wraps of a secret, or of all wraps. -/
def wrapRows (l : Ledger) : Option String → List (Bytes × Bytes)
  | none => l.wraps.rows
  | some secret =>
    l.wraps.rows.filter fun (key, _) =>
      decide (wrapsStart secret ≤ key) && decide (key < wrapsEnd secret)

/-- The wraps of a secret, or all wraps, in order and with their keys. -/
def scanWraps (l : Ledger) (secret : Option String) : Except Error (List (Bytes × Wrap)) := do
  let wraps ← (l.wrapRows secret).mapM fun (key, row) => (decode Wrap.layout row).map (key, ·)
  .ok (wraps.filter fun (_, wrap) => secret.all (wrap.secret = ·))

/-- The key of the counter of wraps. -/
def wrapCounter : Bytes := utf8 "wrap_sequence"

/-- The number of the last wrap. -/
def lastWrap (l : Ledger) : UInt64 :=
  (l.counters.get? wrapCounter).getD 0

/-- Adds a wrap under the next number. -/
def addWrap (l : Ledger) (wrap : Wrap) : Ledger :=
  let number := l.lastWrap + 1
  { l with
    counters := l.counters.insert wrapCounter number
    wraps := l.wraps.insert (wrapKey wrap.secret number) wrap.toJson }

/-- Removes the wraps of a secret, or of all secrets, that pass a test, and counts them. -/
def removeWraps (l : Ledger) (secret : Option String) (remove : Wrap → Bool) :
    Except Error (Nat × Ledger) := do
  let wraps ← l.scanWraps secret
  let keys := (wraps.filter fun (_, wrap) => remove wrap).map (·.1)
  .ok (keys.length, { l with wraps := l.wraps.eraseAll keys })

/-- Checks that a recipient is there. -/
def checkRecipient (l : Ledger) (r : Recipient) : Except Error Unit :=
  let there := match r with
    | .principal name => has l.principals name
    | .group name => has l.groups name
  require there (.notFound r.subject)

end Ledger

end Strongroom
