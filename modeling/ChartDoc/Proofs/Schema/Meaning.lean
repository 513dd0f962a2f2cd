/-
  What published schemas mean to others. `Valid doc schema v` says that the value `v` is valid
  against the JSON value `schema` inside the published document `doc`, by the standard that
  published schemas declare (`schemaDialect`). Neither the walk nor shapes occur here.

  Model. A schema is true, which every value satisfies, false, which none does, or an object, all
  keywords of which must hold. The keywords are those of `Keyword`; other members of a schema are
  annotations and say nothing about values. A keyword about one kind of values holds of all values
  of other kinds. Numbers are compared by their exact values, in units of `2 ^ (-1074)`.
  References are pointers into the definitions of the document by plain names; pointers of other
  forms point to nothing here. Validity is the least relation that the rules give, so a reference
  that only leads back to itself is not satisfied.
-/
import ChartDoc.Proofs.Binary64.Rounding
import ChartDoc.Schema.Publication
import Mathlib.Tactic.ByContra

namespace ChartDoc

/-- The units of `2 ^ (-1074)` in a value, with the sign of the value. -/
def Binary64.Finite.units (x : Binary64.Finite) : Int :=
  if x.negative then -(x.ulps : Int) else x.ulps

namespace Json

/-- The exact value of a number in units of `2 ^ (-1074)`. -/
def Number.units : Number → Int
  | whole n _ => n * Binary64.unitsInOne
  | float x => x.units

/-- Equality of values: numbers by their value, arrays by item, objects by key in any order. -/
inductive Equal : Json → Json → Prop where
  | null : Equal null null
  | bool (b : Bool) : Equal (bool b) (bool b)
  | number {m n : Number} (units : m.units = n.units) : Equal (number m) (number n)
  | string (text : String) : Equal (string text) (string text)
  | array {xs ys : List Json} (length : xs.length = ys.length)
    (items : ∀ (i : Nat) (x y : Json), xs[i]? = some x → ys[i]? = some y → Equal x y) :
    Equal (array xs) (array ys)
  | object {xs ys : Entries Json} (keys : ∀ key, key ∈ xs.keys ↔ key ∈ ys.keys)
    (values : ∀ key x y, List.lookup key xs = some x → List.lookup key ys = some y → Equal x y) :
    Equal (object xs) (object ys)

end Json

namespace Schema

/-- The keywords that say something about values. -/
inductive Keyword where
  | reference
  | type
  | choice
  | minimum
  | maximum
  | minItems
  | items
  | properties
  | required
  | additional

/-- The member of a schema that holds a keyword. -/
def Keyword.word : Keyword → String
  | reference => "$ref"
  | type => "type"
  | choice => "enum"
  | minimum => "minimum"
  | maximum => "maximum"
  | minItems => "minItems"
  | items => "items"
  | properties => "properties"
  | required => "required"
  | additional => "additionalProperties"

/-- A value has the type that its kind names; a number without fraction is also an integer. -/
def HasType (v : Json) (name : String) : Prop :=
  v.kind.word = name ∨
    name = "integer" ∧ ∃ n, v = .number n ∧ (Binary64.unitsInOne : Int) ∣ n.units

/-- A name that stands for itself in a pointer. -/
def PlainToken (name : String) : Prop :=
  '/' ∉ name.toList ∧ '~' ∉ name.toList ∧ '%' ∉ name.toList

instance (name : String) : Decidable (PlainToken name) :=
  inferInstanceAs (Decidable (_ ∧ _))

/-- A pointer into the definitions of a document. -/
inductive Points (doc : Json) : String → Json → Prop where
  | definition {definitions : Entries Json} {name : String} {d : Json}
    (holds : doc.get? "$defs" = some (.object definitions)) (plain : PlainToken name)
    (given : List.lookup name definitions = some d) : Points doc ("#/$defs/" ++ name) d

/-- A schema lists a name among its properties. -/
def Declares (schema : Entries Json) (name : String) : Prop :=
  ∃ properties, List.lookup "properties" schema = some (.object properties) ∧
    name ∈ Entries.keys properties

mutual

/-- A value is valid against a schema in a document. -/
inductive Valid (doc : Json) : Json → Json → Prop where
  | truth (v : Json) : Valid doc (.bool true) v
  | object {schema : Entries Json} {v : Json}
    (holds : ∀ k value, List.lookup k.word schema = some value → Holds doc schema k value v) :
    Valid doc (.object schema) v

/-- A keyword of a schema, with the value it has there, holds of a value. -/
inductive Holds (doc : Json) : Entries Json → Keyword → Json → Json → Prop where
  | reference {schema : Entries Json} {target : String} {d v : Json}
    (points : Points doc target d) (valid : Valid doc d v) :
    Holds doc schema .reference (.string target) v
  | type {schema : Entries Json} {name : String} {v : Json} (has : HasType v name) :
    Holds doc schema .type (.string name) v
  | types {schema : Entries Json} {names : List Json} {name : String} {v : Json}
    (listed : .string name ∈ names) (has : HasType v name) :
    Holds doc schema .type (.array names) v
  | choice {schema : Entries Json} {choices : List Json} {w v : Json} (listed : w ∈ choices)
    (equal : w.Equal v) : Holds doc schema .choice (.array choices) v
  | minimum {schema : Entries Json} {bound : Json.Number} {v : Json}
    (least : ∀ n, v = .number n → bound.units ≤ n.units) :
    Holds doc schema .minimum (.number bound) v
  | maximum {schema : Entries Json} {bound : Json.Number} {v : Json}
    (most : ∀ n, v = .number n → n.units ≤ bound.units) :
    Holds doc schema .maximum (.number bound) v
  | minItems {schema : Entries Json} {bound : Json.Number} {v : Json}
    (least : ∀ vs, v = .array vs → bound.units ≤ vs.length * (Binary64.unitsInOne : Int)) :
    Holds doc schema .minItems (.number bound) v
  | items {schema : Entries Json} {item v : Json}
    (valid : ∀ vs w, v = .array vs → w ∈ vs → Valid doc item w) :
    Holds doc schema .items item v
  | properties {schema properties : Entries Json} {v : Json}
    (valid : ∀ members name p w, v = .object members → List.lookup name properties = some p →
      List.lookup name members = some w → Valid doc p w) :
    Holds doc schema .properties (.object properties) v
  | required {schema : Entries Json} {names : List Json} {v : Json}
    (present : ∀ members name, v = .object members → .string name ∈ names →
      name ∈ Entries.keys members) :
    Holds doc schema .required (.array names) v
  | additional {schema : Entries Json} {other v : Json}
    (valid : ∀ members name w, v = .object members → ¬Declares schema name →
      List.lookup name members = some w → Valid doc other w) :
    Holds doc schema .additional other v

end

variable {doc : Json} {schema : Entries Json} {v : Json}

/-! ## Keywords, one by one -/

theorem Keyword.forall_iff {P : Keyword → Prop} :
    (∀ k, P k) ↔ P .reference ∧ P .type ∧ P .choice ∧ P .minimum ∧ P .maximum ∧ P .minItems ∧
      P .items ∧ P .properties ∧ P .required ∧ P .additional := by
  refine ⟨fun h => ⟨h _, h _, h _, h _, h _, h _, h _, h _, h _, h _⟩, ?_⟩
  rintro ⟨_, _, _, _, _, _, _, _, _, _⟩ k
  cases k <;> assumption

theorem valid_object_iff : Valid doc (.object schema) v ↔
    ∀ k value, List.lookup k.word schema = some value → Holds doc schema k value v := by
  refine ⟨fun h => ?_, .object⟩
  cases h with
  | object holds => exact holds

theorem not_valid_false : ¬Valid doc (.bool false) v :=
  nofun

theorem holds_reference_iff {target : String} :
    Holds doc schema .reference (.string target) v ↔ ∃ d, Points doc target d ∧ Valid doc d v := by
  refine ⟨fun h => ?_, fun ⟨_, points, valid⟩ => .reference points valid⟩
  cases h with
  | reference points valid => exact ⟨_, points, valid⟩

theorem holds_type_iff {name : String} :
    Holds doc schema .type (.string name) v ↔ HasType v name := by
  refine ⟨fun h => ?_, .type⟩
  cases h with
  | type has => exact has

/-- No kind is called integer. -/
theorem hasType_kind_iff {kind : Json.Kind} : HasType v kind.word ↔ v.kind = kind := by
  have hinteger : kind.word ≠ "integer" := by
    cases kind <;> decide
  have hword : ∀ a b : Json.Kind, a.word = b.word → a = b := by
    intro a b
    cases a <;> cases b <;> decide
  constructor
  · rintro (h | ⟨h, -⟩)
    · exact hword _ _ h
    · exact absurd h hinteger
  · rintro rfl
    exact .inl rfl

theorem holds_choice_iff {words : List String} :
    Holds doc schema .choice (.ofStrings words) v ↔ ∃ word ∈ words, v = .string word := by
  constructor
  · intro h
    cases h with
    | choice listed equal =>
      obtain ⟨word, hword, rfl⟩ := List.mem_map.mp listed
      cases equal
      exact ⟨word, hword, rfl⟩
  · rintro ⟨word, hword, rfl⟩
    exact .choice (List.mem_map.mpr ⟨word, hword, rfl⟩) (.string word)

theorem holds_minimum_iff {bound : Json.Number} :
    Holds doc schema .minimum (.number bound) v ↔ ∀ n, v = .number n → bound.units ≤ n.units := by
  refine ⟨fun h => ?_, .minimum⟩
  cases h with
  | minimum least => exact least

theorem holds_maximum_iff {bound : Json.Number} :
    Holds doc schema .maximum (.number bound) v ↔ ∀ n, v = .number n → n.units ≤ bound.units := by
  refine ⟨fun h => ?_, .maximum⟩
  cases h with
  | maximum most => exact most

/-- Whole numbers are compared alike with and without units. -/
theorem units_whole_le_iff {m n : Int} :
    m * (Binary64.unitsInOne : Int) ≤ n * Binary64.unitsInOne ↔ m ≤ n :=
  Int.mul_le_mul_iff_of_pos_right (Int.natCast_pos.mpr Binary64.unitsInOne_pos)

theorem holds_minItems_iff {n : Nat} (fits : Json.Fits n) :
    Holds doc schema .minItems (.ofNat n) v ↔ ∀ vs, v = .array vs → n ≤ vs.length := by
  have hwritten : Json.ofNat n = .number (.whole n fits) := dif_pos fits
  rw [hwritten]
  constructor
  · intro h vs hv
    cases h with
    | minItems least => exact Int.ofNat_le.mp (units_whole_le_iff.mp (least vs hv))
  · intro h
    exact .minItems fun vs hv => units_whole_le_iff.mpr (Int.ofNat_le.mpr (h vs hv))

theorem holds_items_iff {item : Json} :
    Holds doc schema .items item v ↔ ∀ vs, v = .array vs → ∀ w ∈ vs, Valid doc item w := by
  refine ⟨fun h vs hv w hw => ?_, fun h => .items fun vs w hv hw => h vs hv w hw⟩
  cases h with
  | items valid => exact valid vs w hv hw

theorem holds_properties_iff {properties : Entries Json} :
    Holds doc schema .properties (.object properties) v ↔
      ∀ members, v = .object members → ∀ name p w, List.lookup name properties = some p →
        List.lookup name members = some w → Valid doc p w := by
  refine ⟨fun h members hv name p w declared given => ?_,
    fun h => .properties fun members name p w hv => h members hv name p w⟩
  cases h with
  | properties valid => exact valid members name p w hv declared given

theorem holds_required_iff {names : List String} :
    Holds doc schema .required (.ofStrings names) v ↔
      ∀ members, v = .object members → ∀ name ∈ names, name ∈ Entries.keys members := by
  constructor
  · intro h members hv name hname
    cases h with
    | required present => exact present members name hv (List.mem_map.mpr ⟨name, hname, rfl⟩)
  · intro h
    refine .required fun members name hv hname => ?_
    obtain ⟨name', hname', heq⟩ := List.mem_map.mp hname
    exact Json.string.inj heq ▸ h members hv name' hname'

/-- When nothing else is allowed, a schema declares every member of an object. -/
theorem holds_additional_false_iff :
    Holds doc schema .additional (.bool false) v ↔
      ∀ members, v = .object members → ∀ name ∈ Entries.keys members, Declares schema name := by
  constructor
  · intro h members hv name hname
    cases h with
    | additional valid =>
      obtain ⟨w, hw⟩ := Option.isSome_iff_exists.mp ((Entries.lookup_isSome_iff _ _).mpr hname)
      by_contra hnot
      exact not_valid_false (valid members name w hv hnot hw)
  · intro h
    refine .additional fun members name w hv hnot hw => absurd (h members hv name ?_) hnot
    rw [← Entries.lookup_isSome_iff, hw]
    rfl

end Schema

end ChartDoc
