import Colloquy.Backend.Format
import Colloquy.Proofs.Json.Fields

/-!
# Colloquy — schemas of answers

A schema that is asked for in short form is filled in: the properties are written out, the
required ones are listed, and it is said what else an object may hold. A schema in which all
this is done is complete (`AnswerFormat.IsComplete`). Filling in makes a schema complete
(`AnswerFormat.isComplete_complete`) and leaves a complete one alone
(`AnswerFormat.IsComplete.complete_eq`), so what was made of an option's value is made of
itself again (`AnswerFormat.ofOption_normalizes`).
-/

namespace Colloquy.AnswerFormat

-- ---------------------------------------------------------------------------
-- Properties
-- ---------------------------------------------------------------------------

/-- What is written out stays as it is. -/
theorem expandProperty_idem (v : Json) :
    expandProperty (expandProperty v) = expandProperty v := by
  cases v <;> rfl

/-- A property is required if it has no default, or null for one. -/
theorem isRequired_eq_true_iff {property : Json} :
    isRequired property = true ↔
      property.field? "default" = none ∨ property.field? "default" = some .null := by
  unfold isRequired
  rcases property.field? "default" with _ | default
  · simp [Json.isNull]
  · cases default <;> simp [Json.isNull]

/-- Each required property is listed once, where each has one name. -/
theorem nodup_requiredNames {properties : Fields} (h : (properties.map Prod.fst).Nodup) :
    (requiredNames properties).Nodup :=
  (List.filter_sublist.map Prod.fst).nodup h

theorem mem_requiredNames_iff {properties : Fields} (h : (properties.map Prod.fst).Nodup)
    {key : String} :
    key ∈ requiredNames properties ↔
      ∃ property, Fields.get? key properties = some property ∧ isRequired property = true := by
  unfold requiredNames
  rw [List.mem_map]
  constructor
  · rintro ⟨⟨key', property⟩, hmem, rfl⟩
    obtain ⟨hmem, hrequired⟩ := List.mem_filter.mp hmem
    exact ⟨property, Fields.get?_of_mem h hmem, hrequired⟩
  · rintro ⟨property, hget, hrequired⟩
    exact ⟨(key, property), List.mem_filter.mpr ⟨Fields.mem_of_get? hget, hrequired⟩, rfl⟩

-- ---------------------------------------------------------------------------
-- Declared properties
-- ---------------------------------------------------------------------------

/-- The properties that an object declares: those listed under its properties, none if something
else stands there, and all its fields if nothing does. -/
inductive Declares (fields : Fields) : Fields → Prop
  | listed {properties : Fields} (h : fields.get? "properties" = some (.obj properties)) :
      Declares fields properties
  | unlisted {v : Json} (h : fields.get? "properties" = some v) (hv : v.asObj? = none) :
      Declares fields []
  | bare (h : fields.get? "properties" = none) : Declares fields fields

/-- The properties of an object are the declared ones, written out. A name of the object itself is
none of them. -/
theorem exists_declares (fields : Fields) :
    ∃ declared, Declares fields declared ∧
      expandProperties ((wrapProperties fields).erase "name") =
        declared.map fun property => (property.1, expandProperty property.2) := by
  unfold wrapProperties expandProperties
  rw [Fields.get?_erase, if_neg (by decide)]
  cases h : fields.get? "properties" with
  | none =>
    refine ⟨fields, .bare h, ?_⟩
    rw [Fields.contains, h]
    rfl
  | some v =>
    rw [Fields.contains, h, Option.isSome_some, if_pos rfl, h, Option.bind_some]
    cases hv : v.asObj? with
    | none => exact ⟨[], .unlisted h hv, rfl⟩
    | some properties =>
      cases v <;> simp [Json.asObj?] at hv
      exact ⟨properties, .listed (hv ▸ h), rfl⟩

theorem Declares.nodup {fields declared : Fields} (h : Declares fields declared)
    (hordered : (Json.obj fields).Ordered) : (declared.map Prod.fst).Nodup := by
  obtain ⟨hfields, hvalues⟩ := hordered
  cases h with
  | listed h => exact Fields.nodup_keys (Json.ordered_of_get? hvalues h).1
  | unlisted => exact List.nodup_nil
  | bare => exact Fields.nodup_keys hfields

-- ---------------------------------------------------------------------------
-- Complete schemas
-- ---------------------------------------------------------------------------

/-- A schema with these properties in which everything is filled in. -/
structure IsComplete (properties shape : Fields) : Prop where
  ascending : shape.Ascending
  listed : shape.get? "properties" = some (.obj properties)
  expanded : ∀ property ∈ properties, expandProperty property.2 = property.2
  typed : Fields.contains "type" shape = true
  further : shape.get? "additionalProperties" =
    some (furtherProperties (requiredNames properties))
  required : shape.get? "required" = some (.strings (requiredNames properties))

/-- What is found in a schema that was filled in. -/
theorem get?_complete (key : String) (fields : Fields) :
    (complete fields).get? key =
      if key = "required" then some (.strings (requiredNames (expandProperties fields)))
      else if key = "additionalProperties" then
        some (furtherProperties (requiredNames (expandProperties fields)))
      else if key = "properties" then some (.obj (expandProperties fields))
      else (fields.get? key).or (if key = "type" then some (.str "object") else none) := by
  unfold complete
  dsimp only
  rw [Fields.get?_insert, Fields.get?_insert, Fields.get?_insertNew, Fields.get?_insert]
  split
  · rfl
  · split
    · rfl
    · split
      · rfl
      · rfl

/-- Filling in makes a schema complete. -/
theorem isComplete_complete {fields : Fields} (h : fields.Ascending) :
    IsComplete (expandProperties fields) (complete fields) where
  ascending := by
    refine Fields.ascending_insert (Fields.ascending_insert ?_ _ _) _ _
    exact Fields.ascending_insertNew (Fields.ascending_insert h _ _) _ _
  listed := by
    rw [get?_complete, if_neg (by decide), if_neg (by decide), if_pos rfl]
  expanded := by
    intro property hmem
    obtain ⟨field, -, rfl⟩ := List.mem_map.mp hmem
    exact expandProperty_idem field.2
  typed := by
    rw [Fields.contains, get?_complete, if_neg (by decide), if_neg (by decide),
      if_neg (by decide), if_pos rfl, Option.isSome_or]
    simp
  further := by
    rw [get?_complete, if_neg (by decide), if_pos rfl]
  required := by
    rw [get?_complete, if_pos rfl]

namespace IsComplete

variable {properties shape : Fields}

theorem expandProperties_eq (h : IsComplete properties shape) :
    expandProperties shape = properties := by
  have hself : properties.map (fun property => (property.1, expandProperty property.2)) =
      properties := by
    refine (List.map_congr_left fun property hmem => ?_).trans (List.map_id properties)
    rw [h.expanded property hmem]
    rfl
  unfold expandProperties
  rw [h.listed]
  exact hself

/-- Filling in leaves a complete schema alone. -/
theorem complete_eq (h : IsComplete properties shape) : complete shape = shape := by
  unfold complete
  dsimp only
  rw [h.expandProperties_eq, Fields.insert_eq_self h.ascending h.listed, Fields.insertNew,
    if_pos h.typed, Fields.insert_eq_self h.ascending h.further,
    Fields.insert_eq_self h.ascending h.required]

theorem wrapProperties_eq (h : IsComplete properties shape) : wrapProperties shape = shape := by
  rw [wrapProperties, Fields.contains, h.listed, Option.isSome_some, if_pos rfl]

/-- A complete schema without a name of its own stands for itself. -/
theorem ofFields_eq (h : IsComplete properties shape) (hname : shape.get? "name" = none) :
    ofFields shape = .schema "response" shape := by
  have herase : shape.erase "name" = shape := by
    refine Fields.eq_of_get?_eq (Fields.ascending_erase h.ascending _) h.ascending fun key => ?_
    rw [Fields.get?_erase]
    split
    · next heq => rw [heq, hname]
    · rfl
  have hcomplete : complete (shape.erase "name") = shape := by rw [herase, h.complete_eq]
  simp only [ofFields, h.wrapProperties_eq, hname, hcomplete]
  rfl

end IsComplete

-- ---------------------------------------------------------------------------
-- Schemas of values
-- ---------------------------------------------------------------------------

/-- Only an object is a schema, and only if it is not a format as a vendor writes it. -/
theorem ofOption_eq_schema_iff {v : Json} {name : String} {shape : Fields} :
    ofOption v = .schema name shape ↔
      ∃ fields : Fields, v = .obj fields ∧ fields.get? "format" = none ∧
        (fields.get? "type").bind Json.asStr? ≠ some "json_schema" ∧
        ofFields fields = .schema name shape := by
  cases v with
  | obj fields =>
    have hself : (∃ fields' : Fields, Json.obj fields = .obj fields' ∧
        fields'.get? "format" = none ∧
        (fields'.get? "type").bind Json.asStr? ≠ some "json_schema" ∧
        ofFields fields' = .schema name shape) ↔
        Fields.get? "format" fields = none ∧
        (Fields.get? "type" fields).bind Json.asStr? ≠ some "json_schema" ∧
        ofFields fields = .schema name shape := by simp
    rw [hself, ofOption]
    cases Fields.get? "format" fields with
    | some v => simp
    | none =>
      dsimp only
      split
      · next htype => simp [htype]
      · next htype => simp [htype]
  | str kind =>
    rw [ofOption]
    split <;> simp
  | null | bool | int | real | arr => simp [ofOption]

/-- Of its own an object with properties has the fields that it was given, but for a name, and one
without properties has none. -/
theorem get?_erase_wrapProperties {key : String} (hkey : key ≠ "properties") (fields : Fields) :
    ((wrapProperties fields).erase "name").get? key =
      if key = "name" then none
      else if Fields.contains "properties" fields then fields.get? key else none := by
  rw [Fields.get?_erase]
  split
  · rfl
  · unfold wrapProperties
    split
    · rfl
    · rw [Fields.get?, if_neg (Ne.symm hkey), Fields.get?]

/-- A schema that was made of an object is made of itself, under the name of answers without one. -/
theorem ofOption_complete {fields : Fields} (hfields : fields.Ascending)
    (hformat : fields.get? "format" = none)
    (htype : (fields.get? "type").bind Json.asStr? ≠ some "json_schema") :
    ofOption (.obj (complete ((wrapProperties fields).erase "name"))) =
      .schema "response" (complete ((wrapProperties fields).erase "name")) := by
  have hwrapped : (wrapProperties fields).Ascending := by
    unfold wrapProperties
    split
    · exact hfields
    · exact List.pairwise_singleton _ _
  have hcomplete := isComplete_complete (Fields.ascending_erase hwrapped "name")
  -- nothing that is filled in makes the schema look like anything else
  have hget {key : String} (hkey : key ∉ ["required", "additionalProperties", "properties"]) :
      (complete ((wrapProperties fields).erase "name")).get? key =
        (if key = "name" then none
          else if Fields.contains "properties" fields then fields.get? key else none).or
          (if key = "type" then some (.str "object") else none) := by
    simp only [List.mem_cons, List.not_mem_nil, or_false, not_or] at hkey
    rw [get?_complete, if_neg hkey.1, if_neg hkey.2.1, if_neg hkey.2.2,
      get?_erase_wrapProperties hkey.2.2]
  have hformat' : (complete ((wrapProperties fields).erase "name")).get? "format" = none := by
    rw [hget (by decide), hformat, ite_self, ite_self]
    decide
  have hname : (complete ((wrapProperties fields).erase "name")).get? "name" = none := by
    rw [hget (by decide), if_pos rfl]
    decide
  have htype' : ((complete ((wrapProperties fields).erase "name")).get? "type").bind
      Json.asStr? ≠ some "json_schema" := by
    rw [hget (by decide), if_neg (by decide), if_pos rfl]
    split
    · cases hfound : fields.get? "type" with
      | none => decide
      | some v => rwa [hfound] at htype
    · decide
  exact ofOption_eq_schema_iff.mpr ⟨_, rfl, hformat', htype', hcomplete.ofFields_eq hname⟩

/-- The schema that is made of an option's value has the properties that the value declares, each
written out; it requires those of them without a default, or with null for one, each once; and the
same schema is made of itself. -/
theorem ofOption_normalizes {v : Json} (hv : v.Ordered) {name : String} {shape : Fields}
    (h : ofOption v = .schema name shape) :
    ∃ fields declared properties required,
      v = .obj fields ∧ Declares fields declared ∧
      shape.get? "properties" = some (.obj properties) ∧
      properties.map Prod.fst = declared.map Prod.fst ∧
      (∀ key, Fields.get? key properties = (Fields.get? key declared).map expandProperty) ∧
      shape.get? "required" = some (.strings required) ∧
      required.Nodup ∧
      (∀ key, key ∈ required ↔ ∃ property, Fields.get? key properties = some property ∧
        (property.field? "default" = none ∨ property.field? "default" = some .null)) ∧
      ofOption (.obj shape) = .schema "response" shape := by
  obtain ⟨fields, rfl, hformat, htype, hfields⟩ := ofOption_eq_schema_iff.mp h
  obtain ⟨-, rfl⟩ := AnswerFormat.schema.inj hfields
  obtain ⟨declared, hdeclares, hexpanded⟩ := exists_declares fields
  have hnames : (expandProperties ((wrapProperties fields).erase "name")).map Prod.fst =
      declared.map Prod.fst := by
    rw [hexpanded, List.map_map]
    rfl
  have hnodup : ((expandProperties ((wrapProperties fields).erase "name")).map Prod.fst).Nodup :=
    hnames ▸ hdeclares.nodup hv
  refine ⟨fields, declared, _, _, rfl, hdeclares, ?_, hnames, ?_, ?_, nodup_requiredNames hnodup,
    ?_, ofOption_complete hv.1 hformat htype⟩
  · rw [get?_complete, if_neg (by decide), if_neg (by decide), if_pos rfl]
  · intro key
    rw [hexpanded, Fields.get?_map]
  · rw [get?_complete, if_pos rfl]
  · intro key
    rw [mem_requiredNames_iff hnodup]
    simp only [isRequired_eq_true_iff]

/-- A schema with a name, whose properties are called like parts of a schema. -/
theorem ofOption_normalizes_reply :
    let v : Json := .obj [("name", .str "reply"),
      ("properties", .obj [("default", .arr [.str "string", .str "none", .null]),
        ("name", .str "string"), ("required", .arr [.str "boolean", .str "is it?", .bool true])]),
      ("required", .arr [.str "all"])]
    let shape : Fields := [("additionalProperties", .bool false),
      ("properties", .obj [
        ("default", .obj [("default", .null), ("description", .str "none"),
          ("type", .str "string")]),
        ("name", .obj [("type", .str "string")]),
        ("required", .obj [("default", .bool true), ("description", .str "is it?"),
          ("type", .str "boolean")])]),
      ("required", .strings ["default", "name"]), ("type", .str "object")]
    (v.Ordered ∧ ofOption v = .schema "reply" shape) ∧
    ∃ properties required, shape.get? "properties" = some (.obj properties) ∧
      shape.get? "required" = some (.strings required) ∧ required.Nodup ∧
      (∀ key, key ∈ required ↔ ∃ property, Fields.get? key properties = some property ∧
        (property.field? "default" = none ∨ property.field? "default" = some .null)) ∧
      ofOption (.obj shape) = .schema "response" shape := by
  intro v shape
  have hordered : v.Ordered := by
    simp only [v, Json.Ordered, Json.OrderedFields, Json.OrderedItems, Fields.Ascending]
    decide
  have hschema : ofOption v = .schema "reply" shape := by decide +kernel
  obtain ⟨-, -, properties, required, -, -, hproperties, -, -, hrequired, hnodup, hmem, hself⟩ :=
    ofOption_normalizes hordered hschema
  exact ⟨⟨hordered, hschema⟩, properties, required, hproperties, hrequired, hnodup, hmem, hself⟩

end Colloquy.AnswerFormat
