/-
  Shapes: the forms that the definitions of this library's own schemas have. A shape is turned
  into the JSON of a definition by `json`; registries hold the JSON, since the definitions of
  others need not have one of these forms.
-/
import ChartDoc.Json.Record
import ChartDoc.Schema.Registry

namespace ChartDoc

/-- The form of a definition. -/
inductive Shape where
  | text
  /-- One of the given words. -/
  | word (words : List String)
  /-- A number between two bounds, either of which may be absent. -/
  | number (least most : Option Json.Number)
  | boolean
  /-- A list of items of one form, with a least length if one is asked for. -/
  | list (item : Shape) (least : Option Nat)
  /-- An object with the given properties, some of which are required. -/
  | object (description : String) (properties : List (String × Shape)) (required : List String)
  /-- The definition of a name. -/
  | reference (name : String)

namespace Shape

/-- The JSON of a reference to a name. -/
def referenceJson (name : String) : Json :=
  .object [(referenceKey, .string (referenceMark ++ name))]

mutual

/-- The definition of a shape. -/
def json : Shape → Json
  | text => .object [("type", .string "string")]
  | word words => .object [("type", .string "string"), ("enum", .ofStrings words)]
  | number least most =>
    .record
      [Json.always "type" (.string "number"), Json.whenSome "minimum" .number least,
       Json.whenSome "maximum" .number most]
  | boolean => .object [("type", .string "boolean")]
  | list item least =>
    .record
      [Json.always "type" (.string "array"), Json.always "items" (json item),
       Json.whenSome "minItems" .ofNat least]
  | object description properties required =>
    .record
      [Json.always "type" (.string "object"), Json.always "description" (.string description),
       Json.always "properties" (.object (propertyJsons properties)),
       Json.whenSome "required" .ofStrings (if required.isEmpty then none else some required),
       Json.always "additionalProperties" (.bool false)]
  | reference name => referenceJson name
termination_by structural shape => shape

/-- The definitions of the properties of an object. -/
def propertyJsons : List (String × Shape) → List (String × Json)
  | [] => []
  | (name, shape) :: properties => (name, json shape) :: propertyJsons properties
termination_by structural properties => properties

end

theorem propertyJsons_eq_map (properties : List (String × Shape)) :
    propertyJsons properties = properties.map fun p => (p.1, p.2.json) := by
  induction properties with
  | nil => rfl
  | cons p properties ih =>
    obtain ⟨name, shape⟩ := p
    simp [propertyJsons, ih]

end Shape

end ChartDoc
