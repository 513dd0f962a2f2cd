/-
  What the walk finds in what a format writes. A sound value with finite numbers is written
  without violations; of any other value the walk finds the violations part by part: those of a
  list are those of its length and of its items (`violations_list`), those of a record are those
  of its fields, in the order of the fields (`violations_row`).
-/
import ChartDoc.Proofs.Format.Record

namespace ChartDoc

open Schema

variable {r : Registry}

namespace Registry

/-- What the walk finds depends on a schema only through its resolution. -/
theorem violations_congr {schema schema' : Json} (h : r.resolve? schema = r.resolve? schema')
    (here : Location) (v : Json) : r.violations schema here v = r.violations schema' here v := by
  have hdemand : r.demand? schema = r.demand? schema' := by
    rw [demand?, demand?, h]
  cases hs : r.demand? schema' with
  | none =>
    rw [violations_of_demand?_eq_none (hdemand.trans hs), violations_of_demand?_eq_none hs]
  | some d => rw [violations_eq (hdemand.trans hs), violations_eq hs]

/-- Where a value stands does not decide whether something is found in it. -/
theorem violations_eq_nil_iff {schema v : Json} (here : Location) :
    r.violations schema here v = [] ↔ r.Clean schema v := by
  have hunder := violations_under r schema here [] v
  rw [List.append_nil] at hunder
  rw [hunder, List.map_eq_nil_iff, Clean]

/-- What the walk finds under a registered name is what it finds under the shape of that name. -/
theorem violations_reference {name : String} (shape : Shape) (own : shape.isReference = false)
    (registered : r.get? name = some shape.json) (here : Location) (v : Json) :
    r.violations (Shape.reference name).json here v = r.violations shape.json here v := by
  have hresolve : r.resolve? (Shape.reference name).json = r.resolve? shape.json := by
    rw [resolve?_reference, registered, resolve?_shape _ own]
  exact violations_congr hresolve here v

end Registry

namespace Format

variable {α : Type}

theorem violations_write_eq_nil {f : Format r α} {a : α} (sound : f.Sound a) (finite : f.Finite a)
    (here : Location) : r.violations f.shape.json here (f.write a) = [] :=
  (Registry.violations_eq_nil_iff here).mpr ((f.clean_write_iff a).mpr ⟨sound, finite⟩)

/-- What the walk finds in a written number is found in the number itself. -/
theorem violations_number (least most : Option Json.Number) (here : Location) (v : Json) :
    ∃ faults, r.violations (Shape.number least most).json here v =
      Registry.located here faults ∧
      ((Form.number least most).Sound → faults.length ≤ 1) := by
  have hdemand := Registry.demand?_eq (r := r) (Registry.resolve?_shape (.number least most) rfl)
    (Shape.hasForm_number least most)
  refine ⟨(Form.number least most).demand.ownFaults v, ?_, fun sound => length_ownFaults_le sound v⟩
  rw [Registry.violations_eq hdemand]
  exact List.append_nil _

/-- What the walk finds in a written list: the fault of its length, and what it finds in items. -/
theorem violations_list (item : Format r α) {least : Option Nat} (fits : ∀ n ∈ least, Json.Fits n)
    (here : Location) (xs : List α) :
    r.violations (Format.list item least fits).shape.json here (.list item.write xs) =
      Registry.located here (Demand.lengthFaults least xs.length) ++
        xs.zipIdx.flatMap fun e =>
          r.violations item.shape.json (here ++ [.index e.2]) (item.write e.1) := by
  have hdemand := Registry.demand?_eq (r := r)
    (Registry.resolve?_shape (.list item.shape least) rfl) (Shape.hasForm_list item.shape fits)
  show r.violations (Shape.list item.shape least).json here (.array (xs.map item.write)) = _
  rw [Registry.violations_eq hdemand]
  congr 1
  · show Registry.located here (Demand.lengthFaults least (xs.map item.write).length) = _
    rw [List.length_map]
  · show ((xs.map item.write).zipIdx.flatMap fun e =>
      r.violations item.shape.json (here ++ [.index e.2]) e.1) = _
    rw [List.zipIdx_map, List.flatMap_map]
    rfl

end Format

namespace Field

variable {α : Type}

/-- What the walk finds in what a field writes. -/
def violations (field : Field r α) (here : Location) (a : α) : List Violation :=
  match field.content a with
  | some w => r.violations field.shape.json (here ++ [.key field.key]) w
  | none => []

theorem violations_eq_nil {field : Field r α} {a : α} (sound : field.Sound a)
    (finite : field.Finite a) (here : Location) : field.violations here a = [] := by
  have hclean : field.Clean (field.content a) := (field.clean_content_iff a).mpr ⟨sound, finite⟩
  unfold violations
  cases hcontent : field.content a with
  | none => rfl
  | some w => exact (Registry.violations_eq_nil_iff _).mpr (hclean.1 w hcontent)

end Field

namespace Fields

variable {α : Type}

/-- What the walk finds in what a row writes, field by field. -/
def violations {α : Type} : Fields r α → Location → α → List Violation
  | nil, _, _ => []
  | cons field rest, here, a => field.violations here a.1 ++ rest.violations here a.2

theorem violations_eq_nil {fields : Fields r α} {a : α} (sound : fields.Sound a)
    (finite : fields.Finite a) (here : Location) : fields.violations here a = [] := by
  induction fields with
  | nil => rfl
  | cons field rest ih =>
    rw [violations, Field.violations_eq_nil sound.1 finite.1, ih sound.2 finite.2]
    rfl

/-- A sound field with finite numbers contributes nothing. -/
theorem violations_cons_of_sound {β : Type} {field : Field r α} {rest : Fields r β} {a : α × β}
    (sound : field.Sound a.1) (finite : field.Finite a.1) (here : Location) :
    (cons field rest).violations here a = rest.violations here a.2 := by
  rw [violations, Field.violations_eq_nil sound finite, List.nil_append]

/-- Nor does a field without bounds and numbers. -/
theorem violations_cons_of_free {β : Type} {field : Field r α} (free : field.Free)
    (rest : Fields r β) (here : Location) (a : α × β) :
    (cons field rest).violations here a = rest.violations here a.2 :=
  violations_cons_of_sound (free a.1).1 (free a.1).2 here

/-- Before sound fields with finite numbers a field contributes all there is. -/
theorem violations_cons_sound {β : Type} {field : Field r α} {rest : Fields r β} {a : α × β}
    (sound : rest.Sound a.2) (finite : rest.Finite a.2) (here : Location) :
    (cons field rest).violations here a = field.violations here a.1 := by
  rw [violations, violations_eq_nil sound finite, List.append_nil]

/-- A row writes all members that must be there. -/
theorem lookup_ne_none_of_required {fields : Fields r α} {a : α} {members : Entries Json}
    (h : fields.Writes a members) {name : String} (hname : name ∈ fields.required) :
    List.lookup name members ≠ none := by
  induction fields with
  | nil => cases hname
  | cons field rest ih =>
    unfold required at hname
    split at hname
    · rename_i hrequired
      rcases List.mem_cons.mp hname with rfl | hrest
      · rw [h.1]
        cases field with
        | required key f => exact Option.some_ne_none _
        | optional key f => cases hrequired
      · exact ih h.2 hrest
    · exact ih h.2 hname

/-- What the properties of a row contribute to the violations of an object that has the members
    which the row writes. -/
theorem flatMap_propertyViolations {fields : Fields r α} {a : α} {members : Entries Json}
    {required : List String} (h : fields.Writes a members)
    (hrequired : ∀ name ∈ required, List.lookup name members ≠ none) (here : Location) :
    (Shape.propertyJsons fields.properties).flatMap
        (r.propertyViolations required members here) = fields.violations here a := by
  induction fields with
  | nil => rfl
  | cons field rest ih =>
    have hhead : r.propertyViolations required members here (field.key, field.shape.json) =
        field.violations here a.1 := by
      unfold Field.violations
      cases hcontent : field.content a.1 with
      | none =>
        have habsent : List.lookup field.key members = none := h.1.trans hcontent
        have hnot : field.key ∉ required := fun hmem => hrequired _ hmem habsent
        rw [Registry.propertyViolations_of_none r required here habsent, if_neg hnot]
      | some w =>
        exact Registry.propertyViolations_of_some r required here (h.1.trans hcontent)
    rw [properties, Shape.propertyJsons, List.flatMap_cons, hhead, ih h.2]
    rfl

end Fields

/-- What the walk finds in a written record is what it finds in the fields. -/
theorem Format.violations_row {α : Type} {fields : Fields r α} (distinct : fields.keys.Nodup)
    (description : String) (here : Location) (a : α) :
    r.violations (fields.recordShape description).json here (.record (fields.write a)) =
      fields.violations here a := by
  have hdemand := Registry.demand?_eq (fields.resolve?_recordShape description)
    (fields.hasForm_recordShape description)
  have hwrites := Fields.writes_written distinct a
  rw [Registry.violations_eq hdemand]
  exact Fields.flatMap_propertyViolations hwrites
    (fun name hname => Fields.lookup_ne_none_of_required hwrites hname) here

end ChartDoc
