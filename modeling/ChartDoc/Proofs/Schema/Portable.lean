/-
  What the definitions of shapes mean to others. For each way of building a shape there is one
  equivalence between validity against its definition and the plain content of the shape. A
  shape is portable when nothing in it can be read otherwise elsewhere: its bounds are sharp, its
  least lengths are written as numbers, and its references are plain names.
-/
import ChartDoc.Proofs.Json.Bounds
import ChartDoc.Proofs.Schema.ShapeForm

namespace ChartDoc

open Schema

namespace Shape

mutual

/-- Whether the definition of a shape means the same to others. -/
def isPortable : Shape → Bool
  | number least most => least.all Json.Number.isSharp && most.all Json.Number.isSharp
  | list item least => isPortable item && least.all fun n : Nat => decide (Json.Fits n)
  | object _ properties _ => arePortable properties
  | reference name => decide (PlainToken name)
  | _ => true
termination_by structural shape => shape

/-- Whether the definitions of named shapes mean the same to others. -/
def arePortable : List (String × Shape) → Bool
  | [] => true
  | (_, shape) :: shapes => isPortable shape && arePortable shapes
termination_by structural shapes => shapes

end

theorem arePortable_iff {shapes : List (String × Shape)} :
    arePortable shapes = true ↔ ∀ p ∈ shapes, p.2.isPortable = true := by
  induction shapes with
  | nil => exact ⟨fun _ => nofun, fun _ => rfl⟩
  | cons p shapes ih =>
    obtain ⟨name, shape⟩ := p
    rw [arePortable, Bool.and_eq_true, ih, List.forall_mem_cons]

/-- A definition among those of named shapes is that of one of them. -/
theorem exists_of_lookup_propertyJsons {shapes : List (String × Shape)}
    (portable : arePortable shapes = true) {name : String} {d : Json}
    (h : List.lookup name (propertyJsons shapes) = some d) :
    ∃ shape, (name, shape) ∈ shapes ∧ shape.isPortable = true ∧ d = shape.json := by
  rw [lookup_propertyJsons] at h
  obtain ⟨shape, hshape, rfl⟩ := Option.map_eq_some_iff.mp h
  have hmem := Entries.mem_of_lookup hshape
  exact ⟨shape, hmem, arePortable_iff.mp portable _ hmem, rfl⟩

end Shape

namespace Schema

variable {doc v : Json}

theorem hasType_string : HasType v "string" ↔ ∃ s, v = .string s :=
  (@hasType_kind_iff v .string).trans (by cases v <;> simp [Json.kind])

theorem hasType_number : HasType v "number" ↔ ∃ n, v = .number n :=
  (@hasType_kind_iff v .number).trans (by cases v <;> simp [Json.kind])

theorem hasType_boolean : HasType v "boolean" ↔ ∃ b, v = .bool b :=
  (@hasType_kind_iff v .boolean).trans (by cases v <;> simp [Json.kind])

theorem hasType_array : HasType v "array" ↔ ∃ vs, v = .array vs :=
  (@hasType_kind_iff v .array).trans (by cases v <;> simp [Json.kind])

theorem hasType_object : HasType v "object" ↔ ∃ members, v = .object members :=
  (@hasType_kind_iff v .object).trans (by cases v <;> simp [Json.kind])

/-! ## One equivalence for each shape -/

theorem valid_text_iff : Valid doc Shape.text.json v ↔ ∃ s, v = .string s := by
  rw [Shape.json, valid_object_iff, Keyword.forall_iff]
  simp [Keyword.word, Entries.lookup_cons, holds_type_iff, hasType_string]

theorem valid_word_iff {words : List String} :
    Valid doc (Shape.word words).json v ↔ ∃ word ∈ words, v = .string word := by
  rw [Shape.json, valid_object_iff, Keyword.forall_iff]
  simp [Keyword.word, Entries.lookup_cons, holds_type_iff, hasType_string, holds_choice_iff]
  rintro word - rfl
  exact ⟨word, rfl⟩

theorem valid_boolean_iff : Valid doc Shape.boolean.json v ↔ ∃ b, v = .bool b := by
  rw [Shape.json, valid_object_iff, Keyword.forall_iff]
  simp [Keyword.word, Entries.lookup_cons, holds_type_iff, hasType_boolean]

theorem valid_number_iff {least most : Option Json.Number} :
    Valid doc (Shape.number least most).json v ↔
      ∃ n, v = .number n ∧ (∀ m, least = some m → m.units ≤ n.units) ∧
        ∀ m, most = some m → n.units ≤ m.units := by
  rw [Shape.json, Json.record, valid_object_iff, Keyword.forall_iff]
  cases least <;> cases most <;>
    simp [Json.always, Json.whenSome, Keyword.word, Entries.lookup_cons, holds_type_iff,
      hasType_number, holds_minimum_iff, holds_maximum_iff] <;>
    cases v <;> simp

theorem valid_list_iff {item : Shape} {least : Option Nat} (fits : ∀ n ∈ least, Json.Fits n) :
    Valid doc (Shape.list item least).json v ↔
      ∃ vs, v = .array vs ∧ (∀ n, least = some n → n ≤ vs.length) ∧
        ∀ w ∈ vs, Valid doc item.json w := by
  rw [Shape.json, Json.record, valid_object_iff, Keyword.forall_iff]
  cases least <;>
    simp [Json.always, Json.whenSome, Keyword.word, Entries.lookup_cons, holds_type_iff,
      hasType_array, holds_items_iff, holds_minItems_iff, fits] <;>
    cases v <;> simp

theorem valid_record_iff {description : String} {properties : List (String × Shape)}
    {required : List String} :
    Valid doc (Shape.object description properties required).json v ↔
      ∃ members, v = .object members ∧
        (∀ name p w, List.lookup name (Shape.propertyJsons properties) = some p →
          List.lookup name members = some w → Valid doc p w) ∧
        (∀ name ∈ required, name ∈ Entries.keys members) ∧
        ∀ name ∈ Entries.keys members, name ∈ Entries.keys (Shape.propertyJsons properties) := by
  rw [Shape.json, Json.record, valid_object_iff, Keyword.forall_iff]
  cases required <;>
    simp [Json.always, Json.whenSome, Keyword.word, Entries.lookup_cons, holds_type_iff,
      hasType_object, holds_properties_iff, holds_required_iff, holds_additional_false_iff,
      Declares] <;>
    cases v <;> simp

theorem valid_reference_iff {name : String} :
    Valid doc (Shape.reference name).json v ↔
      ∃ d, Points doc (referenceMark ++ name) d ∧ Valid doc d v := by
  rw [Shape.json, Shape.referenceJson, valid_object_iff, Keyword.forall_iff]
  simp [Keyword.word, referenceKey, Entries.lookup_cons, holds_reference_iff]

end Schema

end ChartDoc
