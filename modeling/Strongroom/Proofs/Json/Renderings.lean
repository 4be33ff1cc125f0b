import Strongroom.Message
import Strongroom.Proofs.Json.Rendered

/-!
# Messages in any rendering

Clients need not write their messages as this library writes its own.  Every form of messages is
read the same in whatever order its fields stand, with the empty ones given or left out, with any
blanks and any spelling of its texts, and with members that nobody knows; and no field may stand
twice (`messages_read_in_any_rendering`).
-/

namespace Strongroom.Message

open Json (Content Tabulates ReadsAnyRendering isRow_text isRow_flag isRow_texts endsValues_optional
  endsValues_readText endsValues_readBool endsValues_readList)

namespace Auth

/-- The fields of a login and what they hold. -/
def fields (a : Auth) : List (String × Content) :=
  [("name", .text a.name), ("password", .text a.password)]

theorem tabulates : Tabulates layout fields where
  optional := by simp [layout, Json.Field.optional]
  names _ := rfl
  nodup := by decide
  ext := by
    rintro ⟨⟩ ⟨⟩ h
    simpa [fields] using h
  blank _ := rfl
  rows := by
    intro v x hx
    simp only [fields, List.mem_cons, List.not_mem_nil, or_false] at hx
    rcases hx with rfl | rfl
    · exact isRow_text rfl fun _ => rfl
    · exact isRow_text rfl fun _ => rfl
  ends := by
    intro f hf
    simp only [layout, List.mem_cons, List.not_mem_nil, or_false] at hf
    rcases hf with rfl | rfl <;> exact endsValues_optional endsValues_readText _ _

end Auth

namespace Key

/-- The fields of key material and what they hold. -/
def fields (k : Key) : List (String × Content) :=
  [("name", .text k.name), ("secret", .text k.secret), ("key", .text k.key),
    ("userKey", .text k.userKey), ("groupPub", .text k.groupPub), ("groupPriv", .text k.groupPriv),
    ("path", .text k.path)]

theorem tabulates : Tabulates layout fields where
  optional := by simp [layout, Json.Field.optional]
  names _ := rfl
  nodup := by decide
  ext := by
    rintro ⟨⟩ ⟨⟩ h
    simpa [fields] using h
  blank _ := rfl
  rows := by
    intro v x hx
    simp only [fields, List.mem_cons, List.not_mem_nil, or_false] at hx
    rcases hx with rfl | rfl | rfl | rfl | rfl | rfl | rfl <;> exact isRow_text rfl fun _ => rfl
  ends := by
    intro f hf
    simp only [layout, List.mem_cons, List.not_mem_nil, or_false] at hf
    rcases hf with rfl | rfl | rfl | rfl | rfl | rfl | rfl <;>
      exact endsValues_optional endsValues_readText _ _

end Key

namespace User

/-- The fields of a profile and what they hold. -/
def fields (u : User) : List (String × Content) :=
  [("name", .text u.name), ("admin", .flag u.admin), ("group", .text u.group),
    ("password", .text u.password), ("key", .text u.key)]

theorem tabulates : Tabulates layout fields where
  optional := by simp [layout, Json.Field.optional]
  names _ := rfl
  nodup := by decide
  ext := by
    rintro ⟨⟩ ⟨⟩ h
    simpa [fields] using h
  blank _ := rfl
  rows := by
    intro v x hx
    simp only [fields, List.mem_cons, List.not_mem_nil, or_false] at hx
    rcases hx with rfl | rfl | rfl | rfl | rfl
    · exact isRow_text rfl fun _ => rfl
    · exact isRow_flag rfl fun _ => rfl
    · exact isRow_text rfl fun _ => rfl
    · exact isRow_text rfl fun _ => rfl
    · exact isRow_text rfl fun _ => rfl
  ends := by
    intro f hf
    simp only [layout, List.mem_cons, List.not_mem_nil, or_false] at hf
    rcases hf with rfl | rfl | rfl | rfl | rfl
    · exact endsValues_optional endsValues_readText _ _
    · exact endsValues_optional endsValues_readBool _ _
    · exact endsValues_optional endsValues_readText _ _
    · exact endsValues_optional endsValues_readText _ _
    · exact endsValues_optional endsValues_readText _ _

end User

namespace Response

/-- The field of a plain text and what it holds. -/
def fields (r : Response) : List (String × Content) := [("string", .text r.string)]

theorem tabulates : Tabulates layout fields where
  optional := by simp [layout, Json.Field.optional]
  names _ := rfl
  nodup := by decide
  ext := by
    rintro ⟨⟩ ⟨⟩ h
    simpa [fields] using h
  blank _ := rfl
  rows := by
    intro v x hx
    obtain rfl := List.mem_singleton.1 hx
    exact isRow_text rfl fun _ => rfl
  ends := by
    intro f hf
    obtain rfl := List.mem_singleton.1 hf
    exact endsValues_optional endsValues_readText _ _

end Response

namespace Listing

/-- The fields of a listing and what they hold. -/
def fields (l : Listing) : List (String × Content) :=
  [("name", .text l.name), ("createdBy", .text l.createdBy), ("groups", .texts l.groups),
    ("users", .texts l.users)]

theorem tabulates : Tabulates layout fields where
  optional := by simp [layout, Json.Field.optional]
  names _ := rfl
  nodup := by decide
  ext := by
    rintro ⟨⟩ ⟨⟩ h
    simpa [fields] using h
  blank _ := rfl
  rows := by
    intro v x hx
    simp only [fields, List.mem_cons, List.not_mem_nil, or_false] at hx
    rcases hx with rfl | rfl | rfl | rfl
    · exact isRow_text rfl fun _ => rfl
    · exact isRow_text rfl fun _ => rfl
    · exact isRow_texts rfl fun _ => rfl
    · exact isRow_texts rfl fun _ => rfl
  ends := by
    intro f hf
    simp only [layout, List.mem_cons, List.not_mem_nil, or_false] at hf
    rcases hf with rfl | rfl | rfl | rfl
    · exact endsValues_optional endsValues_readText _ _
    · exact endsValues_optional endsValues_readText _ _
    · exact endsValues_optional (endsValues_readList endsValues_readText) _ _
    · exact endsValues_optional (endsValues_readList endsValues_readText) _ _

end Listing

/-- **Messages are read from all their renderings, and fields that stand twice are refused.** -/
theorem messages_read_in_any_rendering :
    ReadsAnyRendering Auth.layout Auth.fields ∧ ReadsAnyRendering Key.layout Key.fields ∧
      ReadsAnyRendering User.layout User.fields ∧
      ReadsAnyRendering Response.layout Response.fields ∧
      ReadsAnyRendering Listing.layout Listing.fields :=
  ⟨Auth.tabulates.readsAnyRendering, Key.tabulates.readsAnyRendering,
    User.tabulates.readsAnyRendering, Response.tabulates.readsAnyRendering,
    Listing.tabulates.readsAnyRendering⟩

example : Json.readAll User.layout.read (utf8
    " \x7b \"x\":[\x7b\"name\":1e999\x7d], \"\\u0061dmin\" : true,\"name\":\"\\ud83d\\uDD11\" \x7d") =
      .ok { name := "🔑", admin := true } := by
  decide +kernel

end Strongroom.Message
