import Strongroom.Identity
import Strongroom.Json.Record
import Strongroom.Role
import Strongroom.Text.Timestamp

/-!
# Rows

What the ledger stores of principals, groups, secrets and wraps, and how a row is written and read.
Every byte field is a public key, a password hash or something that a client has sealed; the ledger
can open none of them.
-/

namespace Strongroom

open Json (Layout Field)

/-- A principal: an administrator or a client. -/
structure Principal where
  name : String
  /-- Whether it is an administrator or a client. -/
  kind : Role
  publicKey : Bytes
  /-- The group that it is in. -/
  group : String
  /-- The private key of the group, sealed for the principal; none in the default group. -/
  sealedGroupKey : Option Bytes
  /-- The hash of the password. -/
  passwordHash : Bytes
  /-- When the principal was registered. -/
  createdAt : Timestamp
  deriving DecidableEq, Repr

/-- A named set of principals that share a key pair. -/
structure Group where
  name : String
  /-- Whether it is meant for administrators or clients. -/
  kind : Role
  publicKey : Bytes
  /-- The private key, sealed for the supergroup. -/
  sealedPrivateKey : Bytes
  /-- Whether it was there from the start. -/
  builtin : Bool
  /-- When the group was created. -/
  createdAt : Timestamp
  deriving DecidableEq, Repr

/-- A secret: a payload sealed under a key that only exists inside wraps. -/
structure Secret where
  name : String
  /-- The sealed payload. -/
  payload : Bytes
  /-- The principal that created it. -/
  createdBy : String
  /-- When the secret was created. -/
  createdAt : Timestamp
  deriving DecidableEq, Repr

/-- Whom a wrap is sealed for. -/
inductive Recipient where
  | principal (name : String)
  | group (name : String)
  deriving DecidableEq, Repr

/-- The key of a secret, sealed for one recipient. -/
structure Wrap where
  /-- The name of the secret. -/
  secret : String
  /-- Whom the key is sealed for. -/
  recipient : Recipient
  sealedKey : Bytes
  /-- A path that the client may attach. -/
  path : Option String
  /-- When the wrap was made. -/
  createdAt : Timestamp
  deriving DecidableEq, Repr

/-! ### Timestamps -/

namespace Timestamp

/-- The moment that stands in a row until one has been read. -/
def placeholder : Timestamp := ⟨0, 1, 1, 0, 0, 0, 0⟩

/-- A timestamp as JSON. -/
def toJson (t : Timestamp) : Bytes := Json.text t.render

/-- Reads a timestamp. -/
def read (bs : Bytes) : Json.Read Timestamp :=
  match Json.readText bs with
  | .error e => .error e
  | .ok (s, rest) =>
    match ofString? s with
    | some t => .ok (t, rest)
    | none => .error .mistyped

end Timestamp

/-! ### Recipients -/

namespace Recipient

/-- A recipient in words. -/
def describe : Recipient → String
  | principal name => "principal " ++ name
  | group name => "group " ++ name

/-- A recipient as JSON. -/
def toJson : Recipient → Bytes
  | principal name => Json.object [("type", Json.text "principal"), ("name", Json.text name)]
  | group name => Json.object [("type", Json.text "group"), ("name", Json.text name)]

/-- The recipients of the type with a given name. -/
def ofType? (type : String) : Option (String → Recipient) :=
  if type = "principal" then some principal else if type = "group" then some group else none

/-- A member of a recipient's object. -/
inductive Part where
  | type
  | name
  deriving DecidableEq

/-- Looks for the next member that is part of a recipient and ignores the others. -/
def nextPart : (bound : Bytes) → (first : Bool) → Bytes → Json.Read (Option Part)
  | [], _, _ => .error .truncated
  | _ :: bound, first, bs =>
    match Json.nextMember first bs with
    | .error e => .error e
    | .ok (none, rest) => .ok (none, rest)
    | .ok (some member, rest) =>
      if member = "type" then .ok (some .type, rest)
      else if member = "name" then .ok (some .name, rest)
      else match Json.colon rest with
        | .error e => .error e
        | .ok rest =>
          match Json.skip .ignored rest with
          | .error e => .error e
          | .ok rest => nextPart bound false rest

/-- Looks for the next part of a recipient. -/
def part (first : Bool) (bs : Bytes) : Json.Read (Option Part) :=
  nextPart bs first bs

/-- Reads the end of a recipient's object, with nothing but ignored members in front of it. -/
def endParts (r : Recipient) (bs : Bytes) : Except Json.Cause (Recipient × Bytes) := do
  match ← part false bs with
  | (none, rest) => .ok (r, ← Json.endObject rest)
  | (some _, _) => .error .mistyped

/-- Reads a recipient whose type stands first, behind the word `type`. -/
def readTypeFirst (bs : Bytes) : Except Json.Cause (Recipient × Bytes) := do
  let (make, rest) ← Json.readName ofType? (← Json.colon bs)
  match ← part false rest with
  | (some .name, rest) =>
    let (name, rest) ← Json.readText (← Json.colon rest)
    endParts (make name) rest
  | _ => .error .mistyped

/-- Reads a recipient whose name stands first, behind the word `name`. The name is kept until the
type has been read, and it may open at most `room` levels if it turns out to be no text. -/
def readNameFirst (room : Nat) (bs : Bytes) : Except Json.Cause (Recipient × Bytes) := do
  let kept ← Json.colon bs
  let rest ← Json.skip (.kept room) kept
  match ← part false rest with
  | (some .type, rest) =>
    let (make, rest) ← Json.readName ofType? (← Json.colon rest)
    match Json.readText kept with
    | .ok (name, _) => endParts (make name) rest
    | .error _ => .error .mistyped
  | _ => .error .mistyped

/-- Reads a recipient: an object, or the list of its type and its name, both as texts. -/
def read (room : Nat) (bs : Bytes) : Except Json.Cause (Recipient × Bytes) :=
  match Json.skipBlanks bs with
  | [] => .error .truncated
  | b :: rest =>
    if b = Json.ascii '\x7b' then do
      match ← part true rest with
      | (some .type, rest) => readTypeFirst rest
      | (some .name, rest) => readNameFirst room rest
      | (none, _) => .error .mistyped
    else if b = Json.ascii '[' then do
      match ← Json.nextItem true rest with
      | (false, _) => .error .mistyped
      | (true, rest) =>
        let (make, rest) ← Json.readTag ofType? rest
        match ← Json.nextItem false rest with
        | (false, _) => .error .mistyped
        | (true, rest) =>
          let (name, rest) ← Json.readText rest
          .ok (make name, ← Json.endList rest)
    else .error (Json.unexpected (b :: rest))

end Recipient

/-- The number of levels that a JSON text may open where values are kept. -/
def Json.maxDepth : Nat := 127

/-! ### Rows -/

namespace Principal

/-- The fields of a principal's row. -/
def layout : Layout Principal where
  fields :=
    [.mandatory "name" Json.readText fun s p => { p with name := s },
      .mandatory "kind" Role.read fun r p => { p with kind := r },
      .mandatory "public_key" Json.readBytes fun b p => { p with publicKey := b },
      .mandatory "group" Json.readText fun s p => { p with group := s },
      .optional "sealed_group_key" (Json.readOptional Json.readBytes) fun b p =>
        { p with sealedGroupKey := b },
      .mandatory "password_hash" Json.readBytes fun b p => { p with passwordHash := b },
      .mandatory "created_at" Timestamp.read fun t p => { p with createdAt := t }]
  blank := ⟨"", .client, [], "", none, [], .placeholder⟩

/-- A principal as JSON; the sealed key is left out when there is none. -/
def toJson (p : Principal) : Bytes :=
  Json.object <|
    [("name", Json.text p.name), ("kind", p.kind.toJson), ("public_key", Json.bytes p.publicKey),
      ("group", Json.text p.group)] ++
    (p.sealedGroupKey.toList.map fun b => ("sealed_group_key", Json.bytes b)) ++
    [("password_hash", Json.bytes p.passwordHash), ("created_at", p.createdAt.toJson)]

end Principal

namespace Group

/-- The fields of a group's row. -/
def layout : Layout Group where
  fields :=
    [.mandatory "name" Json.readText fun s g => { g with name := s },
      .mandatory "kind" Role.read fun r g => { g with kind := r },
      .mandatory "public_key" Json.readBytes fun b g => { g with publicKey := b },
      .mandatory "sealed_private_key" Json.readBytes fun b g => { g with sealedPrivateKey := b },
      .mandatory "builtin" Json.readBool fun b g => { g with builtin := b },
      .mandatory "created_at" Timestamp.read fun t g => { g with createdAt := t }]
  blank := ⟨"", .client, [], [], false, .placeholder⟩

/-- A group as JSON. -/
def toJson (g : Group) : Bytes :=
  Json.object [("name", Json.text g.name), ("kind", g.kind.toJson),
    ("public_key", Json.bytes g.publicKey), ("sealed_private_key", Json.bytes g.sealedPrivateKey),
    ("builtin", Json.bool g.builtin), ("created_at", g.createdAt.toJson)]

end Group

namespace Secret

/-- The fields of a secret's row. -/
def layout : Layout Secret where
  fields :=
    [.mandatory "name" Json.readText fun t s => { s with name := t },
      .mandatory "payload" Json.readBytes fun b s => { s with payload := b },
      .mandatory "created_by" Json.readText fun t s => { s with createdBy := t },
      .mandatory "created_at" Timestamp.read fun t s => { s with createdAt := t }]
  blank := ⟨"", [], "", .placeholder⟩

/-- A secret as JSON. -/
def toJson (s : Secret) : Bytes :=
  Json.object [("name", Json.text s.name), ("payload", Json.bytes s.payload),
    ("created_by", Json.text s.createdBy), ("created_at", s.createdAt.toJson)]

end Secret

namespace Wrap

/-- The fields of a wrap's row. -/
def layout : Layout Wrap where
  fields :=
    [.mandatory "secret" Json.readText fun s w => { w with secret := s },
      .mandatory "recipient" (Recipient.read (Json.maxDepth - 2)) fun r w =>
        { w with recipient := r },
      .mandatory "sealed_key" Json.readBytes fun b w => { w with sealedKey := b },
      .optional "path" (Json.readOptional Json.readText) fun p w => { w with path := p },
      .mandatory "created_at" Timestamp.read fun t w => { w with createdAt := t }]
  blank := ⟨"", .group "", [], none, .placeholder⟩

/-- A wrap as JSON; the path is left out when there is none. -/
def toJson (w : Wrap) : Bytes :=
  Json.object <|
    [("secret", Json.text w.secret), ("recipient", w.recipient.toJson),
      ("sealed_key", Json.bytes w.sealedKey)] ++
    (w.path.toList.map fun s => ("path", Json.text s)) ++ [("created_at", w.createdAt.toJson)]

end Wrap

end Strongroom
