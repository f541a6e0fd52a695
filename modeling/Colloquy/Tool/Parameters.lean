import Colloquy.Json.Basic

/-!
# Colloquy — parameters of tools

A tool describes its parameters by a JSON schema of an object: its type, its
properties and the names of those that are required.
-/

namespace Colloquy

structure Parameters where
  schema : Json
  deriving DecidableEq, Repr, Inhabited

namespace Parameters

/-- A schema with what it lacks filled in. -/
def ofSchema (v : Json) : Parameters :=
  let fields := v.asObj?.getD []
  ⟨.obj
    (((fields.insertNew "type" (.str "object")).insertNew "properties" (.obj [])).insertNew
      "required" (.arr []))⟩

/-- No parameters. -/
def empty : Parameters := ofSchema (.obj [])

def properties? (p : Parameters) : Option Fields :=
  (p.schema.field? "properties").bind Json.asObj?

/-- The names of the required properties. -/
def required (p : Parameters) : List String :=
  (((p.schema.field? "required").bind Json.asArr?).getD []).filterMap Json.asStr?

end Parameters

/-- Properties gathered one by one. -/
structure ParameterBuilder where
  properties : Fields := []
  required : List String := []
  deriving DecidableEq, Repr, Inhabited

namespace ParameterBuilder

/-- Add a property with its schema. -/
def property (b : ParameterBuilder) (name : String) (schema : Json) (required : Bool) :
    ParameterBuilder :=
  { properties := b.properties.insert name schema
    required :=
      if required && !b.required.contains name then b.required ++ [name] else b.required }

/-- The schema of a plain type. -/
def plain (type description : String) : Json :=
  .object [("type", .str type), ("description", .str description)]

/-- The schema of a list of strings. -/
def stringList (description : String) : Json :=
  .object
    [("type", .str "array"), ("items", .object [("type", .str "string")]),
      ("description", .str description)]

def string (b : ParameterBuilder) (name description : String) (required : Bool) :
    ParameterBuilder :=
  b.property name (plain "string" description) required

def number (b : ParameterBuilder) (name description : String) (required : Bool) :
    ParameterBuilder :=
  b.property name (plain "number" description) required

def boolean (b : ParameterBuilder) (name description : String) (required : Bool) :
    ParameterBuilder :=
  b.property name (plain "boolean" description) required

/-- A string that is one of the given ones. -/
def stringEnum (b : ParameterBuilder) (name description : String) (values : List String)
    (required : Bool) : ParameterBuilder :=
  b.property name
    (.object
      [("type", .str "string"), ("description", .str description), ("enum", .strings values)])
    required

def stringArray (b : ParameterBuilder) (name description : String) (required : Bool) :
    ParameterBuilder :=
  b.property name (stringList description) required

/-- The schema of the gathered properties. -/
def build (b : ParameterBuilder) : Parameters :=
  ⟨.object
    [("type", .str "object"), ("properties", .obj b.properties),
      ("required", .strings b.required)]⟩

end ParameterBuilder

end Colloquy
