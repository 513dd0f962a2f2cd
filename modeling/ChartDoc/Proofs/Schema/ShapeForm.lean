/-
  The definitions that shapes are turned into have the forms that the shapes name, so a shape
  whose parts are formed is formed.
-/
import ChartDoc.Proofs.Schema.Form
import ChartDoc.Schema.Shape

namespace ChartDoc

open Schema

namespace Shape

/-! ## Forms -/

theorem hasForm_text : HasForm text.json (.string none) := by
  refine ⟨rfl, ?_⟩
  simp [json, Json.get?, Json.members?, Form.Keywords, Entries.lookup_cons]

theorem hasForm_word (words : List String) : HasForm (word words).json (.string (some words)) := by
  refine ⟨rfl, ?_⟩
  simp [json, Json.get?, Json.members?, Form.Keywords, Entries.lookup_cons]

theorem hasForm_number (least most : Option Json.Number) :
    HasForm (number least most).json (.number least most) := by
  cases least <;> cases most <;> refine ⟨rfl, ?_, ?_⟩ <;>
    simp [json, Json.record, Json.always, Json.whenSome, Json.get?, Json.members?,
      Entries.lookup_cons]

theorem hasForm_boolean : HasForm boolean.json .boolean :=
  ⟨rfl, trivial⟩

theorem hasForm_list (item : Shape) {least : Option Nat} (h : ∀ n ∈ least, Json.Fits n) :
    HasForm (list item least).json (.array item.json least) := by
  cases least <;> refine ⟨rfl, ?_, ?_, h⟩ <;>
    simp [json, Json.record, Json.always, Json.whenSome, Json.get?, Json.members?,
      Entries.lookup_cons]

theorem hasForm_object (description : String) (properties : List (String × Shape))
    (required : List String) :
    HasForm (object description properties required).json
      (.object (propertyJsons properties) required) := by
  cases required <;> refine ⟨rfl, ?_, ?_⟩ <;>
    simp [json, Json.record, Json.always, Json.whenSome, Json.get?, Json.members?,
      Entries.lookup_cons]

/-- Whether a shape is a reference. -/
def isReference : Shape → Bool
  | reference _ => true
  | _ => false

/-- A shape other than a reference is turned into a definition that is not a reference. -/
theorem get?_referenceKey {shape : Shape} (h : shape.isReference = false) :
    shape.json.get? referenceKey = none := by
  cases shape with
  | reference name => cases h
  | number least most =>
    cases least <;> cases most <;>
      simp [json, referenceKey, Json.record, Json.always, Json.whenSome, Json.get?, Json.members?,
        Entries.lookup_cons]
  | list item least =>
    cases least <;>
      simp [json, referenceKey, Json.record, Json.always, Json.whenSome, Json.get?, Json.members?,
        Entries.lookup_cons]
  | object description properties required =>
    cases required <;>
      simp [json, referenceKey, Json.record, Json.always, Json.whenSome, Json.get?, Json.members?,
        Entries.lookup_cons]
  | _ => simp [json, referenceKey, Json.get?, Json.members?, Entries.lookup_cons]

/-! ## Properties -/

theorem keys_propertyJsons (properties : List (String × Shape)) :
    Entries.keys (propertyJsons properties) = properties.map Prod.fst := by
  rw [propertyJsons_eq_map, Entries.keys, List.map_map]
  rfl

theorem lookup_propertyJsons (name : String) (properties : List (String × Shape)) :
    List.lookup name (propertyJsons properties) =
      (List.lookup name properties).map json := by
  induction properties with
  | nil => rfl
  | cons p properties ih =>
    obtain ⟨key, shape⟩ := p
    rw [propertyJsons, Entries.lookup_cons, Entries.lookup_cons, ih]
    split <;> rfl

/-! ## References -/

theorem get?_reference (name : String) :
    (reference name).json.get? referenceKey = some (.string (referenceMark ++ name)) := by
  simp [json, referenceJson, Json.get?, Json.members?]

end Shape

namespace Registry

variable {r : Registry}

theorem resolve?_shape (shape : Shape) (h : shape.isReference = false) :
    r.resolve? shape.json = some shape.json := by
  simp [resolve?, Shape.get?_referenceKey h]

theorem resolve?_reference (name : String) :
    r.resolve? (Shape.reference name).json = r.get? name := by
  simp [resolve?, Shape.get?_reference, Json.string?, referenceName_mark]

theorem Formed.ofReference {name : String} {d : Json} (registered : r.get? name = some d)
    (own : d.get? referenceKey = none) : r.Formed (Shape.reference name).json :=
  .reference (Shape.get?_reference name) (by rw [referenceName_mark]; exact registered) own

end Registry

end ChartDoc
