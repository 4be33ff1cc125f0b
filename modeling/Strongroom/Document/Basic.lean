import Strongroom.Http.Route
import Strongroom.Json.Writer

/-!
# Interface documents

A document that tells clients what they can request: the operations under every path, and the
schemas of the messages that they take and give. It is written as an OpenAPI document.
-/

namespace Strongroom.Document

/-- What a value looks like. -/
inductive Shape where
  /-- A text. -/
  | text
  /-- A text that may be absent. -/
  | optionalText
  /-- A list of texts. -/
  | texts
  /-- A truth value. -/
  | flag
  /-- A natural number. -/
  | count
  /-- A value with a schema of its own. -/
  | schema (name : String)
  deriving DecidableEq, Repr

/-- A property of a record. -/
structure Property where
  name : String
  /-- What its value looks like. -/
  shape : Shape := .text
  /-- What it means. -/
  description : Option String := none
  /-- Whether it is always there. -/
  required : Bool := false
  deriving DecidableEq, Repr

/-- What a schema allows. -/
inductive Form where
  /-- Records. -/
  | record (properties : List Property)
  /-- Some texts. -/
  | choice (texts : List String)
  deriving DecidableEq, Repr

/-- A schema. -/
structure Schema where
  name : String
  /-- What it is for. -/
  description : String
  /-- What it allows. -/
  form : Form
  deriving DecidableEq, Repr

/-- Where a parameter stands. -/
inductive Place where
  | path
  | query
  deriving DecidableEq, Repr

/-- The word for a place. -/
def Place.word : Place → String
  | path => "path"
  | query => "query"

/-- A parameter of an operation. -/
structure Parameter where
  name : String
  /-- Where it stands. -/
  place : Place
  /-- What its value looks like. -/
  shape : Shape
  /-- What it means. -/
  description : String
  deriving DecidableEq, Repr

/-- What a reply carries. -/
inductive Content where
  /-- One message. -/
  | one (schema : String)
  /-- Any number of messages. -/
  | many (schema : String)
  deriving DecidableEq, Repr

/-- A possible reply to an operation. -/
structure Answer where
  status : Nat
  /-- What it carries. -/
  content : Content
  /-- When it is given. -/
  description : String := ""
  deriving DecidableEq, Repr

/-- An operation. -/
structure Operation where
  /-- The route that it is under. -/
  route : Http.Route
  /-- The method that it is requested by. -/
  method : String
  /-- The part of the interface that it belongs to. -/
  tag : String
  name : String
  /-- What it does, in one line. -/
  summary : Option String := none
  /-- What else there is to say. -/
  details : Option String := none
  parameters : List Parameter := []
  /-- The schema of the message that it takes. -/
  request : Option String := none
  /-- The possible replies. -/
  answers : List Answer
  deriving DecidableEq, Repr

/-- A part of the interface. -/
structure Tag where
  name : String
  /-- What it is for. -/
  description : String
  deriving DecidableEq, Repr

/-! ### Writing -/

/-- A member that is left out if there is no value. -/
def member? (name : String) (value : Option String) : List (String × Bytes) :=
  value.toList.map fun s => (name, Json.text s)

/-- A reference to a schema. -/
def reference (schema : String) : List (String × Bytes) :=
  [("$ref", Json.text ("#/components/schemas/" ++ schema))]

/-- The members that describe a shape, around a description. -/
def Shape.members (description : Option String) : Shape → List (String × Bytes)
  | text => ("type", Json.text "string") :: member? "description" description
  | optionalText =>
    ("type", Json.list [Json.text "string", Json.text "null"]) :: member? "description" description
  | texts => ("type", Json.text "array") :: member? "description" description ++
    [("items", Json.object [("type", Json.text "string")])]
  | flag => ("type", Json.text "boolean") :: member? "description" description
  | count => ("type", Json.text "integer") :: member? "description" description ++
    [("minimum", Json.number 0)]
  | schema name => reference name ++ member? "description" description

/-- Items in the order of their names. -/
def sortedBy {α : Type} (name : α → String) (items : List α) : List α :=
  items.mergeSort fun a b => !(name b < name a)

/-- A property as a member. -/
def Property.toMember (p : Property) : String × Bytes :=
  (p.name, Json.object (p.shape.members p.description))

/-- The names of the properties that are always there. -/
def requiredNames (properties : List Property) : List String :=
  (properties.filter (·.required)).map (·.name)

namespace Schema

/-- The properties of a schema. -/
def properties (s : Schema) : List Property :=
  match s.form with
  | .record ps => ps
  | .choice _ => []

/-- The texts that a schema allows, if it allows only some. -/
def choices (s : Schema) : Option (List String) :=
  match s.form with
  | .record _ => none
  | .choice texts => some texts

/-- The type of the values that a schema allows. -/
def type (s : Schema) : String :=
  match s.form with
  | .record _ => "object"
  | .choice _ => "string"

/-- A schema as a member. -/
def toMember (s : Schema) : String × Bytes :=
  let required := requiredNames s.properties
  (s.name, Json.object <|
    [("type", Json.text s.type), ("description", Json.text s.description)] ++
    (s.choices.toList.map fun texts => ("enum", Json.list (texts.map Json.text))) ++
    (if required.isEmpty then [] else [("required", Json.list (required.map Json.text))]) ++
    (if s.properties.isEmpty then []
      else [("properties", Json.object ((sortedBy (·.name) s.properties).map (·.toMember)))]))

end Schema

/-- A parameter as JSON; a path is never without its parameters. -/
def Parameter.toJson (p : Parameter) : Bytes :=
  Json.object [("name", Json.text p.name), ("in", Json.text p.place.word),
    ("description", Json.text p.description), ("required", Json.bool (p.place = .path)),
    ("schema", Json.object (p.shape.members none))]

/-- A body in JSON with a given schema. -/
def jsonBody (schema : Bytes) : String × Bytes :=
  ("content", Json.object [("application/json", Json.object [("schema", schema)])])

/-- The schema of what a reply carries. -/
def Content.schema : Content → Bytes
  | one name => Json.object (reference name)
  | many name => Json.object [("type", Json.text "array"), ("items", Json.object (reference name))]

/-- A reply as a member. -/
def Answer.toMember (a : Answer) : String × Bytes :=
  (toString a.status,
    Json.object [("description", Json.text a.description), jsonBody a.content.schema])

/-- An operation as a member. -/
def Operation.toMember (o : Operation) : String × Bytes :=
  (o.method.toLower, Json.object <|
    [("tags", Json.list [Json.text o.tag])] ++ member? "summary" o.summary ++
    member? "description" o.details ++ [("operationId", Json.text o.name)] ++
    (if o.parameters.isEmpty then []
      else [("parameters", Json.list (o.parameters.map (·.toJson)))]) ++
    (o.request.toList.map fun name => ("requestBody",
      Json.object [jsonBody (Json.object (reference name)), ("required", Json.bool true)])) ++
    [("responses", Json.object (o.answers.map (·.toMember)))])

/-- A tag as JSON. -/
def Tag.toJson (t : Tag) : Bytes :=
  Json.object [("name", Json.text t.name), ("description", Json.text t.description)]

end Strongroom.Document
