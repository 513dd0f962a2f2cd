/-
  The walk of a value along a schema as one equation. `Registry.violations` recurs on the value
  through two auxiliary functions and carries the location at which it stands. Here its result
  is split into the faults of the value itself and the violations of its parts
  (`violations_eq`), and the location is taken out: a walk that starts elsewhere finds the same
  faults under the other location (`violations_under`). Later modules use these equations and do
  not open the walk again.
-/
import ChartDoc.Proofs.Json.Parts
import ChartDoc.Validation.Walk
import Mathlib.Data.List.Basic

namespace ChartDoc

/-- A violation of a part, seen from the value that has the part at a location. -/
def Violation.under (outer : Location) (x : Violation) : Violation :=
  ⟨outer ++ x.location, x.fault⟩

/-- The faults that a demand finds in a value without looking into its parts. -/
def Demand.ownFaults : Demand → Json → List Fault
  | anything, _ => []
  | object _ _, .object _ => []
  | array least _, .array vs => lengthFaults least vs.length
  | string allowed, .string s => wordFaults allowed s
  | number minimum maximum, .number n => boundFaults minimum maximum n.toBinary64
  | boolean, .bool _ => []
  | demand, v => [.wrongType v.kind demand.typeName]

namespace Registry

/-- What a schema asks of a value, its reference followed. -/
def demand? (r : Registry) (schema : Json) : Option Demand :=
  (r.resolve? schema).map Demand.ofSchema

/-- What a property of an object schema contributes to the violations of an object. -/
def propertyViolations (r : Registry) (required : List String) (members : Entries Json)
    (here : Location) (property : String × Json) : List Violation :=
  match List.lookup property.1 members with
  | some v => r.violations property.2 (here ++ [.key property.1]) v
  | none =>
    if property.1 ∈ required then
      located (here ++ [.key property.1]) [.missingField property.1]
    else []

/-- The violations that a demand finds in the parts of a value, and in parts that are missing. -/
def partViolations (r : Registry) (here : Location) : Demand → Json → List Violation
  | .object properties required, .object members =>
    properties.flatMap (r.propertyViolations required members here)
  | .array _ (some schema), .array vs =>
    vs.zipIdx.flatMap fun e => r.violations schema (here ++ [.index e.2]) e.1
  | _, _ => []

theorem itemViolations_eq (r : Registry) (schema : Json) (here : Location) (position : Nat)
    (vs : List Json) :
    r.itemViolations schema here position vs =
      (vs.zipIdx position).flatMap fun e => r.violations schema (here ++ [.index e.2]) e.1 := by
  induction vs generalizing position with
  | nil => rfl
  | cons v vs ih => rw [itemViolations, ih, List.zipIdx_cons, List.flatMap_cons]

theorem propertyViolations_eq (r : Registry) (required : List String) (members : Entries Json)
    (here : Location) (property : String × Json) :
    (match r.memberViolations property.2 (here ++ [.key property.1]) property.1 members with
      | some found => found
      | none =>
        if property.1 ∈ required then
          located (here ++ [.key property.1]) [.missingField property.1]
        else []) =
      r.propertyViolations required members here property := by
  rw [memberViolations_eq, propertyViolations]
  cases List.lookup property.1 members <;> rfl

theorem propertyViolations_of_some (r : Registry) (required : List String)
    {members : Entries Json} (here : Location) {name : String} {p w : Json}
    (h : List.lookup name members = some w) :
    r.propertyViolations required members here (name, p) =
      r.violations p (here ++ [.key name]) w := by
  rw [propertyViolations, h]

theorem propertyViolations_of_none (r : Registry) (required : List String)
    {members : Entries Json} (here : Location) {name : String} {p : Json}
    (h : List.lookup name members = none) :
    r.propertyViolations required members here (name, p) =
      if name ∈ required then located (here ++ [.key name]) [.missingField name] else [] := by
  rw [propertyViolations, h]

/-- The walk finds the faults of the value itself first, then those of its parts. -/
theorem violations_eq {r : Registry} {schema : Json} {d : Demand}
    (h : r.demand? schema = some d) (here : Location) (v : Json) :
    r.violations schema here v = located here (d.ownFaults v) ++ r.partViolations here d v := by
  unfold demand? at h
  unfold violations
  generalize (r.resolve? schema).map Demand.ofSchema = demand at h ⊢
  subst h
  cases d with
  | object properties required =>
    cases v with
    | object members =>
      show properties.flatMap _ = [] ++ properties.flatMap _
      rw [List.nil_append]
      congr 1
      funext property
      exact propertyViolations_eq r required members here property
    | _ => simp [Demand.ownFaults, partViolations]
  | array least items =>
    cases v with
    | array vs =>
      cases items with
      | none => simp [Demand.ownFaults, partViolations]
      | some s => simp [Demand.ownFaults, partViolations, itemViolations_eq]
    | _ => simp [Demand.ownFaults, partViolations]
  | _ => cases v <;> simp [Demand.ownFaults, partViolations, located]

/-- A reference to a name that is not registered is a fault of whatever value it judges. -/
theorem violations_of_demand?_eq_none {r : Registry} {schema : Json}
    (h : r.demand? schema = none) (here : Location) (v : Json) :
    r.violations schema here v = located here [.unregisteredReference] := by
  unfold demand? at h
  unfold violations
  generalize (r.resolve? schema).map Demand.ofSchema = demand at h ⊢
  subst h
  rfl

/-! ## Locations -/

theorem located_under (outer here : Location) (faults : List Fault) :
    located (outer ++ here) faults = (located here faults).map (Violation.under outer) := by
  simp [located, Violation.under]

/-- The walk finds the same faults wherever the value stands. -/
theorem violations_under (r : Registry) (schema : Json) (outer here : Location) (v : Json) :
    r.violations schema (outer ++ here) v =
      (r.violations schema here v).map (Violation.under outer) := by
  induction v using Json.part_induction generalizing schema outer here with
  | step v ih =>
    cases hd : r.demand? schema with
    | none =>
      rw [violations_of_demand?_eq_none hd, violations_of_demand?_eq_none hd, located_under]
    | some d =>
      rw [violations_eq hd, violations_eq hd, located_under, List.map_append]
      congr 1
      unfold partViolations
      split
      · rw [List.map_flatMap]
        refine List.flatMap_congr fun property _ => ?_
        unfold propertyViolations
        rw [List.append_assoc]
        split
        · rename_i w hw
          exact ih w (.member (Entries.mem_of_lookup hw)) _ _ _
        · split
          · exact located_under _ _ _
          · rfl
      · rw [List.map_flatMap]
        refine List.flatMap_congr fun e he => ?_
        rw [List.append_assoc]
        exact ih e.1 (.item (List.fst_mem_of_mem_zipIdx he)) _ _ _
      · rfl

end Registry

end ChartDoc
