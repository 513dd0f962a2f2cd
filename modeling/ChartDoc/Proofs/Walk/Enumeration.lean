/-
  The walk enumerates the violations of a value: under a formed schema it finds exactly what is
  violated, and nothing twice. The induction is on the parts of the value, because the
  definitions of a registry may refer to each other in circles.
-/
import ChartDoc.Proofs.Walk.OwnFaults
import Mathlib.Data.List.Nodup

namespace ChartDoc

open Schema

namespace Registry

variable {r : Registry} {schema s : Json} {form : Form}

/-- A formed schema leads to a plain schema with a sound form. -/
theorem Formed.resolve (hr : r.AllFormed) (h : r.Formed schema) :
    ∃ s form, r.resolve? schema = some s ∧ HasForm s form ∧ form.Sound ∧
      ∀ q ∈ form.parts, r.Formed q := by
  have hplain : ∀ s, r.Formed s → s.get? referenceKey = none →
      ∃ form, HasForm s form ∧ form.Sound ∧ ∀ q ∈ form.parts, r.Formed q := by
    intro s hs hown
    cases hs with
    | plain _ has sound parts => exact ⟨_, has, sound, parts⟩
    | reference refers _ _ =>
      rw [hown] at refers
      cases refers
  cases h with
  | plain own has sound parts =>
    refine ⟨schema, _, ?_, has, sound, parts⟩
    simp [resolve?, own]
  | reference refers registered own =>
    obtain ⟨form, hform⟩ := hplain _ (hr _ _ registered) own
    refine ⟨_, form, ?_, hform⟩
    simp [resolve?, refers, Json.string?, registered]

theorem demand?_eq (resolved : r.resolve? schema = some s) (has : HasForm s form) :
    r.demand? schema = some form.demand := by
  rw [demand?, resolved, Option.map_some, ofSchema_eq_demand has]

/-- Two forms of one schema are one. -/
theorem form_unique {s' : Json} {form' : Form} (resolved : r.resolve? schema = some s)
    (has : HasForm s form) (resolved' : r.resolve? schema = some s') (has' : HasForm s' form') :
    form = form' := by
  rw [resolved] at resolved'
  cases resolved'
  exact has.unique has'

/-! ## Violations step by step -/

/-- A violation is one of the value itself, a missing member, or a violation of a part. -/
theorem violated_iff (resolved : r.resolve? schema = some s) (has : HasForm s form) {v : Json}
    {location : Location} {fault : Fault} :
    r.Violated schema v location fault ↔
      location = [] ∧ OwnFault form v fault ∨
      (∃ name, Lacks form v name ∧ location = [.key name] ∧ fault = .missingField name) ∨
      ∃ step p w rest, Child form v step p w ∧ location = step :: rest ∧
        r.Violated p w rest fault := by
  constructor
  · intro h
    cases h with
    | own reached resolved' has' broken =>
      cases reached with
      | here =>
        cases form_unique resolved has resolved' has'
        exact .inl ⟨rfl, broken⟩
      | step resolved'' has'' child rest =>
        cases form_unique resolved has resolved'' has''
        exact .inr (.inr ⟨_, _, _, _, child, rfl, .own rest resolved' has' broken⟩)
    | missing reached resolved' has' lacks =>
      cases reached with
      | here =>
        cases form_unique resolved has resolved' has'
        exact .inr (.inl ⟨_, lacks, rfl, rfl⟩)
      | step resolved'' has'' child rest =>
        cases form_unique resolved has resolved'' has''
        exact .inr (.inr ⟨_, _, _, _, child, rfl, .missing rest resolved' has' lacks⟩)
  · rintro (⟨rfl, broken⟩ | ⟨name, lacks, rfl, rfl⟩ | ⟨step, p, w, rest, child, rfl, h⟩)
    · exact .own (.here _ _) resolved has broken
    · exact .missing (.here _ _) resolved has lacks
    · cases h with
      | own reached resolved' has' broken =>
        exact .own (.step resolved has child reached) resolved' has' broken
      | missing reached resolved' has' lacks =>
        exact .missing (.step resolved has child reached) resolved' has' lacks

/-- A walk one step further finds the violations of the part under that step. -/
theorem mem_violations_step_iff {step : Step} {p w : Json} {x : Violation} :
    x ∈ r.violations p [step] w ↔ ∃ y ∈ r.violations p [] w, x = y.under [step] := by
  have h := violations_under r p [step] [] w
  rw [List.append_nil] at h
  rw [h, List.mem_map]
  simp only [eq_comm]

theorem mem_propertyViolations_iff {required : List String} {members : Entries Json}
    {name : String} {p : Json} {x : Violation} :
    x ∈ r.propertyViolations required members [] (name, p) ↔
      (List.lookup name members = none ∧ name ∈ required ∧
        x = ⟨[.key name], .missingField name⟩) ∨
      ∃ w, List.lookup name members = some w ∧
        ∃ y ∈ r.violations p [] w, x = y.under [.key name] := by
  cases hw : List.lookup name members with
  | some w => simp [propertyViolations_of_some r required [] hw, mem_violations_step_iff]
  | none => simp [propertyViolations_of_none r required [] hw, located]

/-- What the walk finds beyond the value itself: missing members, and what it finds in parts. -/
theorem mem_partViolations_iff (hs : form.Sound) {v : Json} {x : Violation} :
    x ∈ r.partViolations [] form.demand v ↔
      (∃ name, Lacks form v name ∧ x = ⟨[.key name], .missingField name⟩) ∨
      ∃ step p w y, Child form v step p w ∧ y ∈ r.violations p [] w ∧ x = y.under [step] := by
  constructor
  · intro h
    unfold partViolations at h
    split at h
    · rename_i properties required members hform
      cases form <;> cases hform
      obtain ⟨⟨name, p⟩, hp, hx⟩ := List.mem_flatMap.mp h
      rcases mem_propertyViolations_iff.mp hx with ⟨absent, requires, rfl⟩ | ⟨w, given, y, hy, rfl⟩
      · exact .inl ⟨name, .member requires absent, rfl⟩
      · have declared := (Entries.lookup_eq_some_iff hs.1).mpr hp
        exact .inr ⟨_, p, w, y, .member declared given, hy, rfl⟩
    · rename_i least item vs hform
      cases form <;> cases hform
      obtain ⟨⟨w, position⟩, he, hx⟩ := List.mem_flatMap.mp h
      obtain ⟨y, hy, rfl⟩ := mem_violations_step_iff.mp hx
      exact .inr ⟨_, item, w, y, .item (List.mk_mem_zipIdx_iff_getElem?.mp he), hy, rfl⟩
    · cases h
  · rintro (⟨name, lacks, rfl⟩ | ⟨step, p, w, y, child, hy, rfl⟩)
    · cases lacks with
      | member requires absent =>
        obtain ⟨⟨_, p⟩, hp, rfl⟩ := List.mem_map.mp (hs.2.2 name requires)
        exact List.mem_flatMap.mpr
          ⟨_, hp, mem_propertyViolations_iff.mpr (.inl ⟨absent, requires, rfl⟩)⟩
    · cases child with
      | member declared given =>
        exact List.mem_flatMap.mpr ⟨_, Entries.mem_of_lookup declared,
          mem_propertyViolations_iff.mpr (.inr ⟨w, given, y, hy, rfl⟩)⟩
      | item given =>
        exact List.mem_flatMap.mpr ⟨_, List.mk_mem_zipIdx_iff_getElem?.mpr given,
          mem_violations_step_iff.mpr ⟨y, hy, rfl⟩⟩

/-- Under a formed schema the walk finds exactly what is violated. -/
theorem mem_violations_iff (hr : r.AllFormed) (h : r.Formed schema) {v : Json} {x : Violation} :
    x ∈ r.violations schema [] v ↔ r.Violated schema v x.location x.fault := by
  induction v using Json.part_induction generalizing schema x with
  | step v ih =>
    obtain ⟨s, form, resolved, has, sound, parts⟩ := h.resolve hr
    rw [violations_eq (demand?_eq resolved has), List.mem_append, mem_partViolations_iff sound,
      violated_iff resolved has]
    obtain ⟨location, fault⟩ := x
    refine or_congr ?_ (or_congr ?_ ?_)
    · constructor
      · intro hx
        obtain ⟨f, hf, heq⟩ := List.mem_map.mp hx
        cases heq
        exact ⟨rfl, mem_ownFaults_iff.mp hf⟩
      · rintro ⟨rfl, broken⟩
        exact List.mem_map.mpr ⟨_, mem_ownFaults_iff.mpr broken, rfl⟩
    · simp only [Violation.mk.injEq]
    · constructor
      · rintro ⟨step, p, w, y, child, hy, heq⟩
        cases heq
        exact ⟨step, p, w, _, child, rfl, (ih w child.isPart (parts p child.mem_parts)).mp hy⟩
      · rintro ⟨step, p, w, rest, child, rfl, hrest⟩
        exact ⟨step, p, w, ⟨rest, _⟩, child,
          (ih w child.isPart (parts p child.mem_parts)).mpr hrest, rfl⟩

/-! ## Every location once -/

/-- Lists of locations behind distinct first steps have no location in common. -/
theorem nodup_flatMap_of_first {α : Type} {xs : List α} (first : α → Step)
    {f : α → List Location} (hxs : (xs.map first).Nodup) (hf : ∀ a ∈ xs, (f a).Nodup)
    (hfirst : ∀ a ∈ xs, ∀ location ∈ f a, location.head? = some (first a)) :
    (xs.flatMap f).Nodup := by
  rw [List.nodup_flatMap]
  refine ⟨hf, ?_⟩
  refine (List.pairwise_map.mp hxs).imp_of_mem fun {a b} ha hb hne => ?_
  intro location hla hlb
  have h := (hfirst a ha location hla).symm.trans (hfirst b hb location hlb)
  exact hne (Option.some.inj h)

/-- The locations that a walk one step further finds, from those found in the part. -/
theorem map_location_step (step : Step) (p w : Json) :
    (r.violations p [step] w).map Violation.location =
      ((r.violations p [] w).map Violation.location).map (step :: ·) := by
  have h := violations_under r p [step] [] w
  rw [List.append_nil] at h
  rw [h, List.map_map, List.map_map]
  rfl

theorem nodup_step {step : Step} {p w : Json}
    (h : ((r.violations p [] w).map Violation.location).Nodup) :
    ((r.violations p [step] w).map Violation.location).Nodup := by
  rw [map_location_step]
  exact h.map (List.cons_injective)

theorem head?_of_mem_step {step : Step} {p w : Json} {location : Location}
    (h : location ∈ (r.violations p [step] w).map Violation.location) :
    location.head? = some step := by
  rw [map_location_step] at h
  obtain ⟨rest, _, rfl⟩ := List.mem_map.mp h
  rfl

/-- What a property contributes lies behind the step to the property, each location once. -/
theorem property_locations (required : List String) {members : Entries Json} {name : String}
    {p : Json} (ih : ∀ w, List.lookup name members = some w →
      ((r.violations p [] w).map Violation.location).Nodup) :
    ((r.propertyViolations required members [] (name, p)).map Violation.location).Nodup ∧
      ∀ location ∈ (r.propertyViolations required members [] (name, p)).map Violation.location,
        location.head? = some (.key name) := by
  cases hw : List.lookup name members with
  | some w =>
    rw [propertyViolations_of_some r required [] hw]
    exact ⟨nodup_step (ih w hw), fun _ => head?_of_mem_step⟩
  | none =>
    rw [propertyViolations_of_none r required [] hw]
    split
    · exact ⟨List.nodup_singleton _, by simp [located]⟩
    · exact ⟨List.nodup_nil, by simp⟩

/-- The walk finds one violation at most in the parts of a value at each location. -/
theorem nodup_partViolations (hs : form.Sound) {v : Json}
    (ih : ∀ step p w, Child form v step p w →
      ((r.violations p [] w).map Violation.location).Nodup) :
    ((r.partViolations [] form.demand v).map Violation.location).Nodup := by
  unfold partViolations
  split
  · rename_i properties required members hform
    cases form <;> cases hform
    have hproperty : ∀ p ∈ properties, ∀ w, List.lookup p.1 members = some w →
        ((r.violations p.2 [] w).map Violation.location).Nodup := fun p hp w given =>
      ih _ _ _ (.member ((Entries.lookup_eq_some_iff hs.1).mpr hp) given)
    rw [List.map_flatMap]
    refine nodup_flatMap_of_first (fun p => .key p.1) ?_
      (fun p hp => (property_locations required (hproperty p hp)).1)
      (fun p hp => (property_locations required (hproperty p hp)).2)
    have hkeys : properties.map (fun p => Step.key p.1) = properties.keys.map .key := by
      simp [Entries.keys]
    rw [hkeys]
    exact hs.1.map fun _ _ => Step.key.inj
  · rename_i least item vs hform
    cases form <;> cases hform
    rw [List.map_flatMap]
    refine nodup_flatMap_of_first (fun e => .index e.2) ?_ ?_ ?_
    · have hpositions : vs.zipIdx.map (fun e => Step.index e.2) =
          (vs.zipIdx.map Prod.snd).map .index := by
        rw [List.map_map]
        rfl
      have hrange : (List.range' 0 vs.length).Nodup := List.nodup_range'
      rw [hpositions, List.zipIdx_map_snd]
      exact hrange.map fun _ _ => Step.index.inj
    · rintro ⟨w, position⟩ he
      exact nodup_step (ih _ _ _ (.item (List.mk_mem_zipIdx_iff_getElem?.mp he)))
    · rintro ⟨w, position⟩ _ location
      exact head?_of_mem_step
  · exact List.nodup_nil

/-- Under a formed schema the walk finds one violation at most at each location. -/
theorem nodup_locations (hr : r.AllFormed) (h : r.Formed schema) (v : Json) :
    ((r.violations schema [] v).map Violation.location).Nodup := by
  induction v using Json.part_induction generalizing schema with
  | step v ih =>
    obtain ⟨s, form, resolved, has, sound, parts⟩ := h.resolve hr
    rw [violations_eq (demand?_eq resolved has), List.map_append]
    refine List.nodup_append.mpr ⟨?_, ?_, ?_⟩
    · have hlen := length_ownFaults_le sound v
      generalize form.demand.ownFaults v = faults at hlen
      cases faults with
      | nil => exact List.nodup_nil
      | cons fault faults =>
        have : faults = [] := List.length_eq_zero_iff.mp (by simpa using hlen)
        rw [this]
        exact List.nodup_singleton _
    · refine nodup_partViolations sound fun step p w child => ?_
      exact ih w child.isPart (parts p child.mem_parts)
    · intro a ha b hb hab
      subst hab
      obtain ⟨x, hx, rfl⟩ := List.mem_map.mp ha
      obtain ⟨f, _, rfl⟩ := List.mem_map.mp hx
      obtain ⟨y, hy, hy'⟩ := List.mem_map.mp hb
      rcases (mem_partViolations_iff sound).mp hy with ⟨name, _, rfl⟩ | ⟨_, _, _, z, _, _, rfl⟩
      · cases hy'
      · cases hy'

end Registry

end ChartDoc
