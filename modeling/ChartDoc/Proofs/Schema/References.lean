/-
  References inside schemas. Publication collects the references of a definition from all of its
  parts, whatever they are (`Json.references`). The walk reads a few keywords of a schema and
  takes the schemas for the parts of a value from two of them. These are parts of the schema, so
  their references are among those that publication has seen
  (`Demand.references_subset_of_mem_parts`). What a value refers to can be said without collecting
  it (`Json.Refers`); the collection has exactly that (`Json.mem_references_iff`).

  A schema is `Closed` in a registry when each of its references names a definition. Publication
  succeeds exactly when the root is registered and all definitions are closed
  (`publish_eq_ok_iff`); then a closed schema asks for something, and the schemas in what it asks
  for are closed again (`Closed.demand?_eq_some`).
-/
import ChartDoc.Proofs.Walk.Equations
import ChartDoc.Schema.Publication

namespace ChartDoc

/-! ## Parts and their references -/

namespace Json

theorem itemReferences_eq (items : List Json) :
    itemReferences items = items.flatMap references := by
  induction items with
  | nil => rfl
  | cons v items ih => rw [itemReferences, ih, List.flatMap_cons]

theorem memberReferences_eq (members : Entries Json) :
    memberReferences members = members.flatMap fun m => references m.2 := by
  induction members with
  | nil => rfl
  | cons m members ih =>
    obtain ⟨key, v⟩ := m
    rw [memberReferences, ih, List.flatMap_cons]

/-- The references of a part are references of the whole. -/
theorem IsPart.references_subset {w v : Json} (h : IsPart w v) : w.references ⊆ v.references := by
  intro target htarget
  cases h with
  | item hmem =>
    rw [references, itemReferences_eq]
    exact List.mem_flatMap.mpr ⟨w, hmem, htarget⟩
  | member hmem =>
    rw [references, memberReferences_eq]
    exact List.mem_append_right _ (List.mem_flatMap.mpr ⟨_, hmem, htarget⟩)

/-- What stands under a key is a part. -/
theorem isPart_of_get? {s w : Json} {key : String} (h : s.get? key = some w) : IsPart w s := by
  obtain ⟨members, hmembers, hlookup⟩ := Option.bind_eq_some_iff.mp h
  rw [members?_eq_some_iff.mp hmembers]
  exact .member (Entries.mem_of_lookup hlookup)

/-- The reference that a schema makes itself is one of its references. -/
theorem mem_references_of_get? {s : Json} {target : String}
    (h : (s.get? referenceKey).bind string? = some target) : target ∈ s.references := by
  cases s with
  | object members =>
    have hown : ownReference? members = some target := h
    rw [references, hown]
    exact List.mem_append_left _ (List.mem_singleton_self target)
  | _ => cases h

/-- `Refers v target`: somewhere in the value `v`, the object itself or a part of it at any depth,
    the string `target` stands under the key of references. -/
inductive Refers : Json → String → Prop where
  | own {v : Json} {target : String} (h : v.get? referenceKey = some (.string target)) :
    Refers v target
  | part {w v : Json} {target : String} (part : IsPart w v) (h : Refers w target) :
    Refers v target

/-- The references that publication collects are all that there are. -/
theorem mem_references_iff {v : Json} {target : String} :
    target ∈ v.references ↔ v.Refers target := by
  constructor
  · intro h
    induction v using part_induction with
    | step v ih =>
      cases v with
      | array items =>
        rw [references, itemReferences_eq] at h
        obtain ⟨w, hw, htarget⟩ := List.mem_flatMap.mp h
        exact .part (.item hw) (ih w (.item hw) htarget)
      | object members =>
        rw [references, memberReferences_eq] at h
        rcases List.mem_append.mp h with hown | hmember
        · obtain ⟨w, hget, hw⟩ := Option.bind_eq_some_iff.mp (Option.mem_toList.mp hown)
          rw [string?_eq_some_iff] at hw
          exact .own (hw ▸ hget)
        · obtain ⟨m, hm, htarget⟩ := List.mem_flatMap.mp hmember
          exact .part (.member hm) (ih m.2 (.member hm) htarget)
      | _ => cases h
  · intro h
    induction h with
    | own h => exact mem_references_of_get? (by rw [h]; rfl)
    | part part _ ih => exact part.references_subset ih

end Json

namespace Demand

/-- The schemas that a demand has for the parts of a value. -/
def parts : Demand → List Json
  | object properties _ => properties.map Prod.snd
  | array _ items => items.toList
  | _ => []

/-- The schemas that are read off a schema refer to nothing that the schema does not refer to. -/
theorem references_subset_of_mem_parts {s p : Json} (h : p ∈ (ofSchema s).parts) :
    p.references ⊆ s.references := by
  unfold ofSchema at h
  split at h
  · cases h
  · obtain ⟨property, hproperty, rfl⟩ := List.mem_map.mp h
    cases hmembers : (s.get? "properties").bind Json.members? with
    | none =>
      rw [hmembers] at hproperty
      cases hproperty
    | some members =>
      rw [hmembers] at hproperty
      obtain ⟨v, hget, hv⟩ := Option.bind_eq_some_iff.mp hmembers
      have hinner : Json.IsPart property.2 v := by
        rw [Json.members?_eq_some_iff.mp hv]
        exact .member hproperty
      exact List.Subset.trans hinner.references_subset (Json.isPart_of_get? hget).references_subset
  · have hitems : s.get? "items" = some p := Option.mem_toList.mp h
    exact (Json.isPart_of_get? hitems).references_subset
  all_goals cases h

end Demand

/-! ## Closed schemas -/

namespace Registry

variable {r : Registry} {s : Json}

/-- Every reference in a schema names a definition. -/
def Closed (r : Registry) (s : Json) : Prop :=
  ∀ target ∈ s.references, r.contains (referenceName target) = true

/-- Every definition of the registry is closed. -/
def AllClosed (r : Registry) : Prop :=
  ∀ name d, r.get? name = some d → r.Closed d

theorem danglingName?_eq_none_iff : r.danglingName? s = none ↔ r.Closed s := by
  rw [danglingName?, List.find?_eq_none, List.forall_mem_map]
  simp only [Closed, Bool.not_eq_true', Bool.not_eq_false]

theorem dangling?_eq_none_iff : r.dangling? = none ↔ r.AllClosed := by
  rw [dangling?, List.findSome?_eq_none_iff]
  constructor
  · intro h name d hget
    have hentry := h (name, d) (Entries.mem_of_lookup hget)
    exact danglingName?_eq_none_iff.mp (Option.map_eq_none_iff.mp hentry)
  · rintro h ⟨name, d⟩ hentry
    have hget : r.get? name = some d := (Entries.lookup_eq_some_iff r.distinct).mpr hentry
    exact Option.map_eq_none_iff.mpr (danglingName?_eq_none_iff.mpr (h name d hget))

/-- A registry is published when the root is registered and every definition is closed. -/
theorem publish_eq_ok_iff {header : Header} {doc : Json} :
    r.publish header = .ok doc ↔
      r.contains header.root = true ∧ r.AllClosed ∧ doc = r.schemaDocument header := by
  unfold publish
  by_cases hroot : r.contains header.root = true
  · rw [if_pos hroot, ← dangling?_eq_none_iff]
    cases hdangling : r.dangling? with
    | none => simp [hroot, eq_comm]
    | some found => simp
  · rw [if_neg hroot]
    simp [hroot]

/-- A closed schema is resolved, to a closed schema when all definitions are closed. -/
theorem Closed.resolve?_eq_some (hr : r.AllClosed) (h : r.Closed s) :
    ∃ d, r.resolve? s = some d ∧ r.Closed d := by
  unfold resolve?
  cases htarget : (s.get? referenceKey).bind Json.string? with
  | none => exact ⟨s, rfl, h⟩
  | some target =>
    have hregistered := h target (Json.mem_references_of_get? htarget)
    obtain ⟨d, hd⟩ := Option.isSome_iff_exists.mp ((r.contains_iff _).mp hregistered)
    exact ⟨d, hd, hr _ d hd⟩

/-- A closed schema asks for something, and the schemas in what it asks for are closed. -/
theorem Closed.demand?_eq_some (hr : r.AllClosed) (h : r.Closed s) :
    ∃ d, r.demand? s = some d ∧ ∀ p ∈ d.parts, r.Closed p := by
  obtain ⟨definition, hresolve, hclosed⟩ := h.resolve?_eq_some hr
  refine ⟨Demand.ofSchema definition, by rw [demand?, hresolve, Option.map_some], ?_⟩
  intro p hp target htarget
  exact hclosed target (Demand.references_subset_of_mem_parts hp htarget)

end Registry

end ChartDoc
