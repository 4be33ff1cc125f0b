import Strongroom.Json.Reader

/-!
# Reading records

A record is an object with named fields in any order. Members with other names are ignored, a field
that stands twice is refused, and one that is left out keeps its value in the blank record unless it
is required. A record may also be given as the list of its fields' values in their order.
-/

namespace Strongroom.Json

/-- A field of records of type `α`. -/
structure Field (α : Type) where
  /-- The name of the field. -/
  name : String
  /-- Whether a record without the field is refused. -/
  required : Bool
  /-- Reads a value of the field and tells how to put it into a record. -/
  read : Bytes → Read (α → α)

namespace Field

/-- A field whose value may be left out. -/
def optional {α β : Type} (name : String) (read : Bytes → Read β) (put : β → α → α) : Field α :=
  ⟨name, false, fun bs => (read bs).map fun (b, rest) => (put b, rest)⟩

/-- A field whose value must be given. -/
def mandatory {α β : Type} (name : String) (read : Bytes → Read β) (put : β → α → α) : Field α :=
  ⟨name, true, fun bs => (read bs).map fun (b, rest) => (put b, rest)⟩

end Field

/-- The fields of a record and the record in which none has been given. -/
structure Layout (α : Type) where
  /-- The fields in order. -/
  fields : List (Field α)
  /-- The record without any field. -/
  blank : α

namespace Layout

variable {α : Type}

/-- The record read so far, and the names of the fields that it was given. -/
abbrev Partial (α : Type) := α × List String

/-- Whether every required field has been given. -/
def isComplete (layout : Layout α) (seen : List String) : Bool :=
  layout.fields.all fun f => !f.required || seen.contains f.name

/-- Reads the members of an object behind its opening brace. -/
def members (layout : Layout α) : (bound : Bytes) → (first : Bool) → Partial α → Bytes → Read α
  | [], _, _, _ => .error .truncated
  | _ :: bound, first, (a, seen), bs =>
    match nextMember first bs with
    | .error e => .error e
    | .ok (none, rest) =>
      if layout.isComplete seen then (endObject rest).map (a, ·) else .error .mistyped
    | .ok (some name, rest) =>
      match layout.fields.find? (·.name == name) with
      | none =>
        match colon rest with
        | .error e => .error e
        | .ok rest =>
          match skip .ignored rest with
          | .error e => .error e
          | .ok rest => members layout bound false (a, seen) rest
      | some f =>
        if seen.contains name then .error .mistyped
        else match colon rest with
          | .error e => .error e
          | .ok rest =>
            match f.read rest with
            | .error e => .error e
            | .ok (put, rest) => members layout bound false (put a, name :: seen) rest

/-- Reads the fields of a record from the items of a list behind its opening bracket. -/
def positional : (fields : List (Field α)) → (first : Bool) → α → Bytes → Read α
  | [], _, a, bs => (endList bs).map (a, ·)
  | f :: fields, first, a, bs =>
    match nextItem first bs with
    | .error e => .error e
    | .ok (false, rest) =>
      if f.required then .error .mistyped else positional fields first a rest
    | .ok (true, rest) =>
      match f.read rest with
      | .error e => .error e
      | .ok (put, rest) => positional fields false (put a) rest

/-- Reads a record. -/
def read (layout : Layout α) (bs : Bytes) : Read α :=
  match skipBlanks bs with
  | [] => .error .truncated
  | b :: rest =>
    if b = ascii '\x7b' then layout.members rest true (layout.blank, []) rest
    else if b = ascii '[' then positional layout.fields true layout.blank rest
    else .error (unexpected (b :: rest))

end Layout

end Strongroom.Json
