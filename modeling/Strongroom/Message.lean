import Strongroom.Json.Record

/-!
# Messages

What clients send and get. A field that a message leaves out has its empty value, and the receiver
decides whether it was needed. Byte strings travel as base64 text. A reply is a row of messages, one
directly behind the other.
-/

namespace Strongroom.Message

open Json (Layout Field)

/-- A login. -/
structure Auth where
  /-- The principal's name. -/
  name : String := ""
  password : String := ""
  deriving DecidableEq, Repr, Inhabited

namespace Auth

/-- The fields of a login. -/
def layout : Layout Auth where
  fields :=
    [.optional "name" Json.readText fun s a => { a with name := s },
      .optional "password" Json.readText fun s a => { a with password := s }]
  blank := {}

/-- A login as JSON. -/
def toJson (a : Auth) : Bytes :=
  Json.object [("name", Json.text a.name), ("password", Json.text a.password)]

end Auth

/-- Key material of a secret or of a group. Depending on the request this carries a new secret, a
wrap of an existing secret or the key pair of a group. -/
structure Key where
  /-- The name of the secret or group. -/
  name : String := ""
  /-- The payload of the secret, sealed under the secret's own key. -/
  secret : String := ""
  /-- The secret's own key, sealed for the supergroup or for the recipient of a grant. -/
  key : String := ""
  /-- The secret's own key, sealed for its creator. -/
  userKey : String := ""
  /-- The public key of the group. -/
  groupPub : String := ""
  /-- The private key of the group, sealed for the supergroup or for a principal. -/
  groupPriv : String := ""
  /-- A path that clients may attach. -/
  path : String := ""
  deriving DecidableEq, Repr, Inhabited

namespace Key

/-- The fields of key material. -/
def layout : Layout Key where
  fields :=
    [.optional "name" Json.readText fun s k => { k with name := s },
      .optional "secret" Json.readText fun s k => { k with secret := s },
      .optional "key" Json.readText fun s k => { k with key := s },
      .optional "userKey" Json.readText fun s k => { k with userKey := s },
      .optional "groupPub" Json.readText fun s k => { k with groupPub := s },
      .optional "groupPriv" Json.readText fun s k => { k with groupPriv := s },
      .optional "path" Json.readText fun s k => { k with path := s }]
  blank := {}

/-- Key material as JSON. -/
def toJson (k : Key) : Bytes :=
  Json.object [("name", Json.text k.name), ("secret", Json.text k.secret), ("key", Json.text k.key),
    ("userKey", Json.text k.userKey), ("groupPub", Json.text k.groupPub),
    ("groupPriv", Json.text k.groupPriv), ("path", Json.text k.path)]

end Key

/-- The profile of a principal; with a password, a request to register one. -/
structure User where
  /-- The principal's name. -/
  name : String := ""
  /-- Whether it is an administrator. -/
  admin : Bool := false
  /-- The group that it is in. -/
  group : String := ""
  /-- Its password; only ever present in a request. -/
  password : String := ""
  /-- Its public key. -/
  key : String := ""
  deriving DecidableEq, Repr, Inhabited

namespace User

/-- The fields of a profile. -/
def layout : Layout User where
  fields :=
    [.optional "name" Json.readText fun s u => { u with name := s },
      .optional "admin" Json.readBool fun b u => { u with admin := b },
      .optional "group" Json.readText fun s u => { u with group := s },
      .optional "password" Json.readText fun s u => { u with password := s },
      .optional "key" Json.readText fun s u => { u with key := s }]
  blank := {}

/-- A profile as JSON; an empty password is left out. -/
def toJson (u : User) : Bytes :=
  Json.object <|
    [("name", Json.text u.name), ("admin", Json.bool u.admin), ("group", Json.text u.group)] ++
    (if u.password.isEmpty then [] else [("password", Json.text u.password)]) ++
    [("key", Json.text u.key)]

end User

/-- A plain text: an acknowledgement or an error. -/
structure Response where
  /-- The text. -/
  string : String := ""
  deriving DecidableEq, Repr, Inhabited

namespace Response

/-- The field of a plain text. -/
def layout : Layout Response where
  fields := [.optional "string" Json.readText fun s r => { r with string := s }]
  blank := {}

/-- A plain text as JSON. -/
def toJson (r : Response) : Bytes :=
  Json.object [("string", Json.text r.string)]

end Response

/-- A secret as administrators see it: whom it is wrapped for, not what it holds. -/
structure Listing where
  /-- The name of the secret. -/
  name : String := ""
  /-- The principal that created it. -/
  createdBy : String := ""
  /-- The groups that it is wrapped for. -/
  groups : List String := []
  /-- The principals that it is wrapped for. -/
  users : List String := []
  deriving DecidableEq, Repr, Inhabited

namespace Listing

/-- The fields of a listing. -/
def layout : Layout Listing where
  fields :=
    [.optional "name" Json.readText fun s l => { l with name := s },
      .optional "createdBy" Json.readText fun s l => { l with createdBy := s },
      .optional "groups" (Json.readList Json.readText) fun gs l => { l with groups := gs },
      .optional "users" (Json.readList Json.readText) fun us l => { l with users := us }]
  blank := {}

/-- A listing as JSON. -/
def toJson (l : Listing) : Bytes :=
  Json.object [("name", Json.text l.name), ("createdBy", Json.text l.createdBy),
    ("groups", Json.list (l.groups.map Json.text)), ("users", Json.list (l.users.map Json.text))]

end Listing

/-- The body of a reply: its messages one directly behind the other. -/
def body (messages : List Bytes) : Bytes :=
  messages.flatten

end Strongroom.Message
