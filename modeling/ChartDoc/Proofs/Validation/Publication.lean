/-
  The published schema and the walk. Under the definitions of portable shapes, a value is valid
  in the published document exactly when the walk finds nothing in it and no object in it has a
  member that its definition does not declare (`valid_schemaDocument_iff`). The proof goes by
  induction on the parts of the value: every plain shape is settled by the shapes of the parts,
  and a reference by the plain shape that it names, at the same value.

  The chart definitions are the definitions of portable shapes and they are published, so the
  published schema accepts the documents that are accepted here, but for undeclared members.
-/
import ChartDoc.Proofs.Schema.Portable
import ChartDoc.Proofs.Validation.Acceptance

namespace ChartDoc

open Schema

namespace Registry

variable {r : Registry} {shapes : List (String × Shape)} {header : Header} {doc v : Json}

/-- The form of a formed schema is sound, and its parts are formed. -/
theorem Formed.sound_parts {s : Json} {form : Form} (h : r.Formed s)
    (own : s.get? referenceKey = none) (has : HasForm s form) :
    form.Sound ∧ ∀ q ∈ form.parts, r.Formed q := by
  cases h with
  | plain _ has' sound parts =>
    cases has.unique has'
    exact ⟨sound, parts⟩
  | reference refers _ _ =>
    rw [own] at refers
    cases refers

/-- A formed reference names a definition that is not a reference itself. -/
theorem Formed.registered {name : String} (h : r.Formed (Shape.reference name).json) :
    ∃ d, r.get? name = some d ∧ d.get? referenceKey = none := by
  have hrefers := Shape.get?_reference name
  cases h with
  | plain own _ _ _ =>
    rw [own] at hrefers
    cases hrefers
  | reference refers registered own =>
    rw [refers] at hrefers
    cases hrefers
    rw [referenceName_mark] at registered
    exact ⟨_, registered, own⟩

/-- The walk finds nothing in a value, and no object in it has an undeclared member. -/
def Conforms (r : Registry) (schema v : Json) : Prop :=
  r.Clean schema v ∧ ¬r.HoldsStray schema v

theorem conforms_congr {schema schema' : Json} (h : r.resolve? schema = r.resolve? schema') :
    r.Conforms schema v ↔ r.Conforms schema' v :=
  and_congr (clean_congr h) (not_congr (holdsStray_congr h))

theorem conforms_leaf_iff {shape : Shape} {form : Form} (own : shape.isReference = false)
    (has : HasForm shape.json form) (leaf : form.IsLeaf) :
    r.Conforms shape.json v ↔ r.Clean shape.json v :=
  and_iff_left (not_holdsStray_leaf (resolve?_shape shape own) has leaf v)

theorem conforms_list_iff {item : Shape} {least : Option Nat} (fits : ∀ n ∈ least, Json.Fits n) :
    r.Conforms (Shape.list item least).json v ↔
      ∃ vs, v = .array vs ∧ (∀ n, least = some n → n ≤ vs.length) ∧
        ∀ w ∈ vs, r.Conforms item.json w := by
  have resolved := resolve?_shape (r := r) (.list item least) rfl
  have has := Shape.hasForm_list item fits
  unfold Conforms
  rw [clean_array_iff resolved has]
  constructor
  · rintro ⟨⟨vs, rfl, hleast, hitems⟩, hstray⟩
    rw [holdsStray_array_iff resolved has] at hstray
    exact ⟨vs, rfl, hleast, fun w hw => ⟨hitems w hw, fun h => hstray ⟨w, hw, h⟩⟩⟩
  · rintro ⟨vs, rfl, hleast, hitems⟩
    refine ⟨⟨vs, rfl, hleast, fun w hw => (hitems w hw).1⟩, ?_⟩
    rw [holdsStray_array_iff resolved has]
    rintro ⟨w, hw, hstray⟩
    exact (hitems w hw).2 hstray

theorem conforms_record_iff {description : String} {properties : List (String × Shape)}
    {required : List String}
    (sound : (Form.object (Shape.propertyJsons properties) required).Sound) :
    r.Conforms (Shape.object description properties required).json v ↔
      ∃ members, v = .object members ∧
        (∀ name p w, List.lookup name (Shape.propertyJsons properties) = some p →
          List.lookup name members = some w → r.Conforms p w) ∧
        (∀ name ∈ required, name ∈ Entries.keys members) ∧
        ∀ name ∈ Entries.keys members, name ∈ Entries.keys (Shape.propertyJsons properties) := by
  have resolved := resolve?_shape (r := r) (.object description properties required) rfl
  have has := Shape.hasForm_object description properties required
  have hgiven (name : String) (members : Entries Json) :
      List.lookup name members ≠ none ↔ name ∈ members.keys := by
    rw [← Entries.lookup_isSome_iff, Option.isSome_iff_ne_none]
  unfold Conforms
  rw [clean_object_iff resolved has sound]
  constructor
  · rintro ⟨⟨members, rfl, hparts, hrequired⟩, hstray⟩
    rw [holdsStray_object_iff resolved has, not_or] at hstray
    refine ⟨members, rfl, fun name p w declared given => ⟨?_, fun h => ?_⟩, fun name hname => ?_,
      fun name hname => ?_⟩
    · exact hparts _ (Entries.mem_of_lookup declared) w given
    · exact hstray.2 ⟨name, p, w, declared, given, h⟩
    · exact (hgiven name members).mp (hrequired name hname)
    · by_contra undeclared
      exact hstray.1 ⟨name, hname, undeclared⟩
  · rintro ⟨members, rfl, hparts, hrequired, hdeclared⟩
    refine ⟨⟨members, rfl, fun p hp w given => ?_, fun name hname => ?_⟩, ?_⟩
    · exact (hparts p.1 p.2 w ((Entries.lookup_eq_some_iff sound.1).mpr hp) given).1
    · exact (hgiven name members).mpr (hrequired name hname)
    · rw [holdsStray_object_iff resolved has]
      rintro (⟨name, hname, undeclared⟩ | ⟨name, p, w, declared, given, hstray⟩)
      · exact undeclared (hdeclared name hname)
      · exact (hparts name p w declared given).2 hstray

/-! ## Portable shapes -/

/-- In a document, a value is valid against the definition of a shape when it conforms to it. -/
def Agrees (r : Registry) (doc v : Json) (shape : Shape) : Prop :=
  Valid doc shape.json v ↔ r.Conforms shape.json v

theorem agrees_number {least most : Option Json.Number}
    (ordered : (Form.number least most).Sound)
    (portable : (Shape.number least most).isPortable = true) :
    r.Agrees doc v (.number least most) := by
  rw [Shape.isPortable, Bool.and_eq_true, Option.all_eq_true, Option.all_eq_true] at portable
  obtain ⟨hleast, hmost⟩ := portable
  unfold Agrees
  rw [valid_number_iff, conforms_leaf_iff rfl (Shape.hasForm_number least most) trivial,
    Format.clean_number_iff ordered]
  refine exists_congr fun n => and_congr_right fun _ => and_congr ?_ ?_
  · exact forall_congr' fun m => imp_congr_right fun hm =>
      (Json.Number.le_toBinary64_iff (hleast m hm) n).symm
  · exact forall_congr' fun m => imp_congr_right fun hm =>
      (Json.Number.toBinary64_le_iff (hmost m hm) n).symm

/-- A plain shape agrees with a value when portable formed shapes agree with the parts. -/
theorem agrees_plain (shape : Shape) (own : shape.isReference = false)
    (portable : shape.isPortable = true) (formed : r.Formed shape.json)
    (parts : ∀ w, Json.IsPart w v → ∀ part : Shape, part.isPortable = true →
      r.Formed part.json → r.Agrees doc w part) : r.Agrees doc v shape := by
  have hplain := Shape.get?_referenceKey own
  cases shape with
  | reference name => cases own
  | text =>
    unfold Agrees
    rw [valid_text_iff, conforms_leaf_iff rfl Shape.hasForm_text trivial, Format.clean_text_iff]
  | word words =>
    unfold Agrees
    rw [valid_word_iff, conforms_leaf_iff rfl (Shape.hasForm_word words) trivial,
      Format.clean_word_iff]
  | boolean =>
    unfold Agrees
    rw [valid_boolean_iff, conforms_leaf_iff rfl Shape.hasForm_boolean trivial,
      Format.clean_boolean_iff]
  | number least most =>
    exact agrees_number (formed.sound_parts hplain (Shape.hasForm_number least most)).1 portable
  | list item least =>
    rw [Shape.isPortable, Bool.and_eq_true, Option.all_eq_true] at portable
    obtain ⟨hitem, hfits⟩ := portable
    have fits : ∀ n ∈ least, Json.Fits n := fun n hn => of_decide_eq_true (hfits n hn)
    have hformed := (formed.sound_parts hplain (Shape.hasForm_list item fits)).2 _
      (List.mem_singleton_self _)
    unfold Agrees
    rw [valid_list_iff fits, conforms_list_iff fits]
    refine exists_congr fun vs => and_congr_right fun hv => and_congr_right fun _ => ?_
    subst hv
    exact forall_congr' fun w => imp_congr_right fun hw =>
      parts w (.item hw) item hitem hformed
  | object description properties required =>
    obtain ⟨sound, hparts⟩ := formed.sound_parts hplain
      (Shape.hasForm_object description properties required)
    unfold Agrees
    rw [valid_record_iff, conforms_record_iff sound]
    refine exists_congr fun members => and_congr_right fun hv => and_congr_left fun _ => ?_
    subst hv
    refine forall_congr' fun name => forall_congr' fun p => forall_congr' fun w =>
      imp_congr_right fun declared => imp_congr_right fun given => ?_
    obtain ⟨part, -, hpart, rfl⟩ := Shape.exists_of_lookup_propertyJsons portable declared
    have hformed := hparts _ (List.mem_map.mpr ⟨_, Entries.mem_of_lookup declared, rfl⟩)
    exact parts w (.member (Entries.mem_of_lookup given)) part hpart hformed

/-- What a reference by a plain name points to in the published document. -/
theorem points_schemaDocument_iff {name : String} (plain : PlainToken name) {d : Json} :
    Points (r.schemaDocument header) (referenceMark ++ name) d ↔ r.get? name = some d := by
  have hdefinitions : (r.schemaDocument header).get? "$defs" = some (.object r.definitions) := by
    simp [schemaDocument, referenceKey, Json.get?, Json.members?, Entries.lookup_cons]
  constructor
  · intro h
    generalize htarget : referenceMark ++ name = target at h
    cases h with
    | @definition definitions name' d holds _ given =>
      rw [hdefinitions] at holds
      cases holds
      have hname : name = name' := by
        have hlists := congrArg String.toList htarget
        rw [String.toList_append, String.toList_append] at hlists
        exact String.toList_injective (List.append_cancel_left hlists)
      rw [get?, hname, given]
  · exact fun h => .definition hdefinitions plain h

/-- Portable formed shapes agree with every value, in the published document of a registry of
    portable shapes. -/
theorem agrees (definitions : r.definitions = Shape.propertyJsons shapes)
    (portable : Shape.arePortable shapes = true) (allFormed : r.AllFormed) (v : Json) :
    ∀ shape : Shape, shape.isPortable = true → r.Formed shape.json →
      r.Agrees (r.schemaDocument header) v shape := by
  induction v using Json.part_induction with
  | step v ih =>
    intro shape hportable hformed
    cases shape with
    | reference name =>
      have hplain : PlainToken name := of_decide_eq_true hportable
      obtain ⟨d, registered, own⟩ := hformed.registered
      have hlookup : List.lookup name (Shape.propertyJsons shapes) = some d := by
        rw [← definitions]
        exact registered
      obtain ⟨target, -, htarget, rfl⟩ :=
        Shape.exists_of_lookup_propertyJsons portable hlookup
      have hown : target.isReference = false := by
        cases target with
        | reference other =>
          rw [Shape.get?_reference] at own
          cases own
        | _ => rfl
      have hvalid : Valid (r.schemaDocument header) (Shape.reference name).json v ↔
          Valid (r.schemaDocument header) target.json v := by
        rw [valid_reference_iff]
        constructor
        · rintro ⟨d, points, valid⟩
          have hd := (points_schemaDocument_iff hplain).mp points
          rw [registered] at hd
          cases hd
          exact valid
        · exact fun valid => ⟨_, (points_schemaDocument_iff hplain).mpr registered, valid⟩
      have hresolve : r.resolve? (Shape.reference name).json = r.resolve? target.json := by
        rw [resolve?_reference, registered, resolve?_shape target hown]
      unfold Agrees
      rw [hvalid, conforms_congr hresolve]
      exact agrees_plain target hown htarget (allFormed name _ registered) ih
    | _ => exact agrees_plain _ rfl hportable hformed ih

/-- The published document is a schema that says nothing but its reference to the root. -/
theorem valid_document_iff : Valid doc (r.schemaDocument header) v ↔
    Valid doc (Shape.reference header.root).json v := by
  rw [valid_reference_iff, schemaDocument, valid_object_iff, Keyword.forall_iff]
  simp [Keyword.word, referenceKey, Entries.lookup_cons, holds_reference_iff]

/-- A value is valid against the published document of a registry of portable shapes exactly
    when it conforms to the definition of the root. -/
theorem valid_schemaDocument_iff (definitions : r.definitions = Shape.propertyJsons shapes)
    (portable : Shape.arePortable shapes = true) (allFormed : r.AllFormed)
    (root : r.Formed (Shape.reference header.root).json) (plain : PlainToken header.root) :
    Valid (r.schemaDocument header) (r.schemaDocument header) v ↔
      r.Conforms (Shape.reference header.root).json v :=
  valid_document_iff.trans
    (agrees definitions portable allFormed v (.reference header.root) (decide_eq_true plain) root)

end Registry

/-! ## The chart definitions -/

namespace Document

/-- The schema of chart documents is published, and a value is valid against it exactly when it
    is accepted as a document and no object in it has a member that its definition does not
    declare. -/
theorem valid_chartSchema_iff : ∃ doc, chartSchema = .ok doc ∧
    ∀ v, Valid doc doc v ↔
      (∃ d, ofValue v = .ok d) ∧ ¬Registry.chart.HoldsStray reference v := by
  have hroot : Registry.chart.contains Header.chart.root = true := by
    decide +kernel
  have hdangling : Registry.chart.dangling? = none := by
    decide +kernel
  have hportable : Shape.arePortable chartShapes = true := by
    decide +kernel
  refine ⟨Registry.chart.schemaDocument .chart, ?_, fun v => ?_⟩
  · unfold chartSchema Registry.publish
    rw [if_pos hroot, hdangling]
  · have haccepted : (∃ d, ofValue v = .ok d) ↔ Registry.chart.Clean reference v := by
      constructor
      · rintro ⟨d, h⟩
        exact (ofValue_eq_ok_iff_clean.mp h).1
      · intro hclean
        obtain ⟨⟨d, hread, -⟩, -⟩ := (namedFormat.clean_iff v).mp hclean
        exact ⟨d, ofValue_eq_ok_iff_clean.mpr ⟨hclean, hread⟩⟩
    rw [haccepted]
    exact Registry.valid_schemaDocument_iff Registry.chart_definitions hportable
      Registry.chart_allFormed namedFormat.formed (by decide)

end Document

end ChartDoc
