/-
  Walks along different schemas that find the same. A relation between the schemas of two
  registries is a simulation when related schemas ask for the same, up to related schemas for
  properties and items. Then the two walks find the same violations in every value
  (`violations_eq_of_simulates`): what a schema asks for is followed down into the value, and the
  value ends however the references of the registries run.
-/
import ChartDoc.Proofs.Schema.References
import Mathlib.Data.List.Forall2

namespace ChartDoc

/-- Demands that differ at most in the schemas of properties and items, which are related. -/
def Demand.Alike (R : Json → Json → Prop) : Demand → Demand → Prop
  | object properties required, object properties' required' =>
    List.Forall₂ (fun p q => p.1 = q.1 ∧ R p.2 q.2) properties properties' ∧
      required = required'
  | array least items, array least' items' => least = least' ∧ Option.Rel R items items'
  | d, d' => d = d'

namespace Demand

variable {R : Json → Json → Prop}

/-- A demand is like itself when the schemas that it has for parts are related to themselves. -/
theorem Alike.of_parts {d : Demand} (h : ∀ p ∈ d.parts, R p p) : Alike R d d := by
  cases d with
  | object properties required =>
    refine ⟨List.forall₂_same.mpr fun property hproperty => ⟨rfl, ?_⟩, rfl⟩
    exact h property.2 (List.mem_map_of_mem hproperty)
  | array least items =>
    cases items with
    | none => exact ⟨rfl, .none⟩
    | some s => exact ⟨rfl, .some (h s (List.mem_singleton_self s))⟩
  | _ => rfl

/-- Over a reflexive relation every demand is like itself. -/
theorem Alike.refl (hR : ∀ s, R s s) (d : Demand) : Alike R d d :=
  .of_parts fun p _ => hR p

/-- Demands that are alike find the same faults in a value itself. -/
theorem Alike.ownFaults_eq {d d' : Demand} (h : Alike R d d') (v : Json) :
    d.ownFaults v = d'.ownFaults v := by
  cases d with
  | object properties required =>
    cases d' with
    | object properties' required' => cases v <;> rfl
    | _ => cases h
  | array least items =>
    cases d' with
    | array least' items' =>
      obtain ⟨rfl, -⟩ := h
      cases v <;> rfl
    | _ => cases h
  | _ =>
    cases d' <;> cases h
    rfl

end Demand

namespace Registry

variable {r r' : Registry} {R : Json → Json → Prop}

/-- Related schemas ask for the same in the two registries, up to related schemas inside. -/
def Simulates (r r' : Registry) (R : Json → Json → Prop) : Prop :=
  ∀ s s', R s s' → Option.Rel (Demand.Alike R) (r.demand? s) (r'.demand? s')

theorem flatMap_eq_of_forall₂ {α β γ : Type} {f : α → List γ} {g : β → List γ} {xs : List α}
    {ys : List β} (h : List.Forall₂ (fun x y => f x = g y) xs ys) :
    xs.flatMap f = ys.flatMap g := by
  induction h with
  | nil => rfl
  | cons hxy _ ih => rw [List.flatMap_cons, List.flatMap_cons, hxy, ih]

/-- Demands that are alike find the same in the parts of a value, if related schemas do. -/
theorem partViolations_eq_of_alike {d d' : Demand} (h : Demand.Alike R d d') {v : Json}
    (ih : ∀ w, Json.IsPart w v → ∀ p p', R p p' → ∀ here,
      r.violations p here w = r'.violations p' here w) (here : Location) :
    r.partViolations here d v = r'.partViolations here d' v := by
  cases d with
  | object properties required =>
    cases d' with
    | object properties' required' =>
      obtain ⟨hprops, rfl⟩ := h
      cases v with
      | object members =>
        refine flatMap_eq_of_forall₂ (hprops.imp ?_)
        rintro ⟨name, p⟩ ⟨name', p'⟩ ⟨hname, hp⟩
        simp only at hname hp
        subst hname
        cases hw : List.lookup name members with
        | none => rw [propertyViolations_of_none _ _ _ hw, propertyViolations_of_none _ _ _ hw]
        | some w =>
          rw [propertyViolations_of_some _ _ _ hw, propertyViolations_of_some _ _ _ hw]
          exact ih w (.member (Entries.mem_of_lookup hw)) p p' hp _
      | _ => rfl
    | _ => cases h
  | array least items =>
    cases d' with
    | array least' items' =>
      obtain ⟨-, hitems⟩ := h
      cases hitems with
      | none => cases v <;> rfl
      | some hs =>
        cases v with
        | array vs =>
          refine List.flatMap_congr fun e he => ?_
          exact ih e.1 (.item (List.fst_mem_of_mem_zipIdx he)) _ _ hs _
        | _ => rfl
    | _ => cases h
  | _ =>
    cases d' <;> cases h
    rfl

/-- Walks along related schemas find the same violations in every value. -/
theorem violations_eq_of_simulates (sim : Simulates r r' R) {s s' : Json} (h : R s s')
    (here : Location) (v : Json) : r.violations s here v = r'.violations s' here v := by
  induction v using Json.part_induction generalizing s s' here with
  | step v ih =>
    have hdemand := sim s s' h
    generalize hd : r.demand? s = demand at hdemand
    generalize hd' : r'.demand? s' = demand' at hdemand
    cases hdemand with
    | none => rw [violations_of_demand?_eq_none hd, violations_of_demand?_eq_none hd']
    | some halike =>
      rw [violations_eq hd, violations_eq hd', halike.ownFaults_eq v]
      congr 1
      exact partViolations_eq_of_alike halike (fun w hw p p' hp here => ih w hw hp here) here

/-- Checks under a name whose definitions are related, or missing in both registries, find the
    same. -/
theorem check_eq_of_simulates (sim : Simulates r r' R) {root : String}
    (h : Option.Rel R (r.get? root) (r'.get? root)) (v : Json) :
    r.check root v = r'.check root v := by
  unfold check
  generalize r.get? root = definition at h
  generalize r'.get? root = definition' at h
  cases h with
  | none => rfl
  | some hs => exact violations_eq_of_simulates sim hs [] v

end Registry

end ChartDoc
