/-
  The normal form of a value under a schema: in every object that the schema describes, the
  members that it declares, in the order in which it declares them; in place of every number,
  the float it stands for. Everything else stays as it is.
-/
import ChartDoc.Proofs.Walk.Equations

namespace ChartDoc

namespace Registry

mutual

/-- The normal form of a value under a schema. -/
def normalForm (r : Registry) (schema : Json) (v : Json) : Json :=
  match r.demand? schema, v with
  | some (.object properties _), .object members =>
    .object (properties.filterMap fun p =>
      (normalMember r p.2 p.1 members).map fun w => (p.1, w))
  | some (.array _ (some item)), .array vs => .array (normalItems r item vs)
  | some (.number _ _), .number n => .ofBinary64 n.toBinary64
  | _, v => v
termination_by structural v

/-- The normal forms of the items of an array. -/
def normalItems (r : Registry) (schema : Json) (vs : List Json) : List Json :=
  match vs with
  | [] => []
  | v :: vs => normalForm r schema v :: normalItems r schema vs
termination_by structural vs

/-- The normal form of the first member under a name, if there is such a member. -/
def normalMember (r : Registry) (schema : Json) (name : String)
    (members : List (String × Json)) : Option Json :=
  match members with
  | [] => none
  | (key, v) :: members =>
    if name = key then some (normalForm r schema v) else normalMember r schema name members
termination_by structural members

end

theorem normalItems_eq (r : Registry) (schema : Json) (vs : List Json) :
    r.normalItems schema vs = vs.map (r.normalForm schema) := by
  induction vs with
  | nil => rfl
  | cons v vs ih => rw [normalItems, ih, List.map_cons]

theorem normalMember_eq (r : Registry) (schema : Json) (name : String) (members : Entries Json) :
    r.normalMember schema name members =
      (List.lookup name members).map (r.normalForm schema) := by
  induction members with
  | nil => rfl
  | cons member members ih =>
    obtain ⟨key, v⟩ := member
    rw [Entries.lookup_cons, normalMember]
    split
    · rfl
    · exact ih

variable {r : Registry} {schema : Json}

theorem normalForm_object {properties : Entries Json} {required : List String}
    (h : r.demand? schema = some (.object properties required)) (members : Entries Json) :
    r.normalForm schema (.object members) =
      .object (properties.filterMap fun p =>
        (List.lookup p.1 members).map fun w => (p.1, r.normalForm p.2 w)) := by
  conv_lhs => unfold normalForm
  generalize r.demand? schema = demand at h ⊢
  subst h
  simp only [normalMember_eq, Option.map_map]
  rfl

theorem normalForm_array {item : Json} {least : Option Nat}
    (h : r.demand? schema = some (.array least (some item))) (vs : List Json) :
    r.normalForm schema (.array vs) = .array (vs.map (r.normalForm item)) := by
  conv_lhs => unfold normalForm
  generalize r.demand? schema = demand at h ⊢
  subst h
  simp only [normalItems_eq]

theorem normalForm_number {minimum maximum : Option Binary64}
    (h : r.demand? schema = some (.number minimum maximum)) (n : Json.Number) :
    r.normalForm schema (.number n) = .ofBinary64 n.toBinary64 := by
  conv_lhs => unfold normalForm
  generalize r.demand? schema = demand at h ⊢
  subst h
  rfl

theorem normalForm_string (text : String) : r.normalForm schema (.string text) = .string text := by
  unfold normalForm
  split <;> simp_all

theorem normalForm_bool (b : Bool) : r.normalForm schema (.bool b) = .bool b := by
  unfold normalForm
  split <;> simp_all

/-- The normal form depends on a schema only through what the schema asks for. -/
theorem normalForm_congr {schema' : Json} (h : r.demand? schema = r.demand? schema') (v : Json) :
    r.normalForm schema v = r.normalForm schema' v := by
  unfold normalForm
  rw [h]

end Registry

end ChartDoc
