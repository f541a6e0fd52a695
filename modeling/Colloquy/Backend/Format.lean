import Colloquy.Json.Printer

/-!
# Colloquy — formats of answers

An answer may be asked for as JSON, in a named format, or in a format that a schema
describes. A schema can be written short: the properties alone, the type of a
property in the place of its schema, or a list of type, description and default.

* `AnswerFormat.ofOption` — the format that an option's value asks for.
* `AnswerFormat.expandProperty` — the schema of a property that is written short.
* `AnswerFormat.complete` — the schema with everything filled in.
-/

namespace Colloquy

inductive AnswerFormat where
  /-- Any JSON object. -/
  | jsonObject
  | named (kind : String)
  | schema (name : String) (shape : Fields)
  /-- A format as a vendor writes it. -/
  | verbatim (v : Json)
  deriving DecidableEq, Repr

namespace AnswerFormat

/-- The names of the first items of a list that stands for a property. -/
def propertyKeys : List String := ["type", "description", "default"]

/-- The schema of a property: a type, or a list of type, description and default, is written out. -/
def expandProperty : Json → Json
  | .str kind => .object [("type", .str kind)]
  | .arr parts => .object (propertyKeys.zip parts)
  | v => v

/-- A property without a default is required; null is no default. -/
def isRequired (property : Json) : Bool :=
  ((property.field? "default").getD .null).isNull

/-- An object without properties is all properties. -/
def wrapProperties (fields : Fields) : Fields :=
  if Fields.contains "properties" fields then fields else [("properties", .obj fields)]

/-- The schemas of the properties. -/
def expandProperties (fields : Fields) : Fields :=
  (((fields.get? "properties").bind Json.asObj?).getD []).map fun (key, info) =>
    (key, expandProperty info)

/-- The names of the required ones among properties. -/
def requiredNames (properties : Fields) : List String :=
  (properties.filter fun property => isRequired property.2).map Prod.fst

/-- What is said about properties that are not listed: without required ones they are strings, else
there are none. -/
def furtherProperties (required : List String) : Json :=
  if required.isEmpty then .object [("type", .str "string")] else .bool false

/-- The schema of an object with everything filled in. -/
def complete (fields : Fields) : Fields :=
  let properties := expandProperties fields
  let required := requiredNames properties
  (((fields.insert "properties" (.obj properties)).insertNew "type" (.str "object")).insert
    "additionalProperties" (furtherProperties required)).insert "required" (.strings required)

/-- The format of an object, which may have a name of its own. -/
def ofFields (fields : Fields) : AnswerFormat :=
  let fields := wrapProperties fields
  .schema (((fields.get? "name").bind Json.asStr?).getD "response")
    (complete (fields.erase "name"))

/-- The format that an option's value asks for. -/
def ofOption : Json → AnswerFormat
  | .str kind => if kind == "json" || kind == "json_object" then .jsonObject else .named kind
  | .obj fields =>
    match Fields.get? "format" fields with
    | some v => .verbatim v
    | none =>
      if (Fields.get? "type" fields).bind Json.asStr? = some "json_schema" then .verbatim (.obj fields)
      else ofFields fields
  | v => .named v.render

/-- An object that has a type and nothing more. -/
def ofType (kind : String) : Json :=
  .object [("type", .str kind)]

/-- The format as chat completions take it. -/
def forChat : AnswerFormat → Json
  | .jsonObject => ofType "json_object"
  | .named kind => ofType kind
  | .schema name shape =>
    .object
      [("type", .str "json_schema"),
        ("json_schema", .object [("name", .str name), ("schema", .obj shape)])]
  | .verbatim v => v

/-- The format as responses take it. -/
def forResponses : AnswerFormat → Json
  | .jsonObject => ofType "json_object"
  | .named kind => ofType kind
  | .schema name shape =>
    .object [("type", .str "json_schema"), ("name", .str name), ("schema", .obj shape)]
  | .verbatim v => v

/-- The format as Ollama takes it. -/
def forOllama : AnswerFormat → Json
  | .jsonObject => .str "json"
  | .named kind => .str kind
  | .schema _ shape => .obj shape
  | .verbatim v => v

end AnswerFormat

end Colloquy
