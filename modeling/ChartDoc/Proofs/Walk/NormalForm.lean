/-
  What is reached in a normal form. The normal form of a value has the parts of the value that
  the schema declares, each in its normal form and at its old location, and no others
  (`reaches_normalForm_iff`). So nothing that a schema declares is lost in a normal form, and
  nothing is added; and the normal form of a clean value is clean (`clean_normalForm`).
-/
import ChartDoc.Proofs.Json.Number
import ChartDoc.Proofs.Schema.NormalForm
import ChartDoc.Proofs.Walk.Clean

namespace ChartDoc

open Schema

namespace Registry

variable {r : Registry} {schema s : Json} {form : Form}

/-- A value of another kind than the form asks for is its own normal form. -/
theorem normalForm_of_kind_ne (resolved : r.resolve? schema = some s) (has : HasForm s form)
    {v : Json} (h : v.kind ≠ form.kind) : r.normalForm schema v = v := by
  have hdemand := demand?_eq resolved has
  unfold normalForm
  rw [hdemand]
  cases form <;> cases v <;> first | rfl | exact absurd rfl h

/-- The member of a normal form under a name. -/
theorem lookup_normalForm (properties members : Entries Json) (name : String) :
    List.lookup name (properties.filterMap fun p =>
        (List.lookup p.1 members).map fun w => (p.1, r.normalForm p.2 w)) =
      (List.lookup name properties).bind fun p =>
        (List.lookup name members).map (r.normalForm p) := by
  induction properties with
  | nil => rfl
  | cons property properties ih =>
    obtain ⟨key, p⟩ := property
    rw [List.filterMap_cons, Entries.lookup_cons]
    by_cases hname : name = key
    · subst hname
      rw [if_pos rfl]
      cases hgiven : List.lookup name members with
      | none =>
        simp only [hgiven] at ih ⊢
        rw [Option.map_none, ih]
        cases List.lookup name properties <;> rfl
      | some w => simp
    · rw [if_neg hname, ← ih]
      cases List.lookup key members with
      | none => rfl
      | some w => simp [Entries.lookup_cons, hname]

/-- One step into a normal form leads to the normal form of a part. -/
theorem child_normalForm_iff (resolved : r.resolve? schema = some s) (has : HasForm s form)
    {v : Json} {step : Step} {p u : Json} :
    Child form (r.normalForm schema v) step p u ↔
      ∃ w, Child form v step p w ∧ u = r.normalForm p w := by
  by_cases hkind : v.kind = form.kind
  · cases form with
    | array item least =>
      cases v <;> cases hkind
      rename_i vs
      rw [normalForm_array (demand?_eq resolved has)]
      constructor
      · intro child
        cases child with
        | item given =>
          rw [List.getElem?_map] at given
          obtain ⟨w, hw, rfl⟩ := Option.map_eq_some_iff.mp given
          exact ⟨w, .item hw, rfl⟩
      · rintro ⟨w, child, rfl⟩
        cases child with
        | item given => exact .item (by rw [List.getElem?_map, given, Option.map_some])
    | object properties required =>
      cases v <;> cases hkind
      rename_i members
      rw [normalForm_object (demand?_eq resolved has)]
      constructor
      · intro child
        cases child with
        | member declared given =>
          rw [lookup_normalForm, declared, Option.bind_some] at given
          obtain ⟨w, hw, rfl⟩ := Option.map_eq_some_iff.mp given
          exact ⟨w, .member declared hw, rfl⟩
      · rintro ⟨w, child, rfl⟩
        cases child with
        | member declared given =>
          refine .member declared ?_
          rw [lookup_normalForm, declared, given, Option.bind_some, Option.map_some]
    | _ =>
      constructor
      · rintro ⟨⟩
      · rintro ⟨w, ⟨⟩, _⟩
  · rw [normalForm_of_kind_ne resolved has hkind]
    have hnone (w : Json) : ¬Child form v step p w := by
      rintro (_ | _) <;> exact hkind rfl
    exact ⟨fun h => absurd h (hnone u), fun ⟨w, h, _⟩ => absurd h (hnone w)⟩

/-- What is reached in a normal form is the normal form of what is reached in the value. -/
theorem reaches_normalForm_iff {v : Json} {location : Location} {q u : Json} :
    r.Reaches schema (r.normalForm schema v) location q u ↔
      ∃ w, r.Reaches schema v location q w ∧ u = r.normalForm q w := by
  constructor
  · intro h
    generalize hx : r.normalForm schema v = x at h
    induction h generalizing v with
    | here schema x => exact ⟨v, .here _ _, hx.symm⟩
    | step resolved has child _ ih =>
      subst hx
      obtain ⟨w', child', rfl⟩ := (child_normalForm_iff resolved has).mp child
      obtain ⟨w, reached, hu⟩ := ih rfl
      exact ⟨w, .step resolved has child' reached, hu⟩
  · rintro ⟨w, h, rfl⟩
    induction h with
    | here schema v => exact .here _ _
    | step resolved has child _ ih =>
      exact .step resolved has ((child_normalForm_iff resolved has).mpr ⟨_, child, rfl⟩) ih

/-! ## Clean values -/

theorem admits_normalForm (resolved : r.resolve? schema = some s) (has : HasForm s form)
    {v : Json} (h : form.Admits v) : form.Admits (r.normalForm schema v) := by
  have hdemand := demand?_eq resolved has
  cases form with
  | string words =>
    cases v <;> cases h.kind_eq
    rwa [normalForm_string]
  | number minimum maximum =>
    cases v <;> cases h.kind_eq
    rename_i n
    obtain ⟨x, hx⟩ := Binary64.isFinite_iff.mp n.toBinary64_isFinite
    -- The float that a number stands for stands for itself.
    rw [normalForm_number hdemand, hx]
    have hsame : (Json.Number.float x).toBinary64 = n.toBinary64 := hx.symm
    simpa only [Json.ofBinary64, Form.Admits, hsame] using h
  | boolean =>
    cases v <;> cases h.kind_eq
    rwa [normalForm_bool]
  | array item least =>
    cases v <;> cases h.kind_eq
    rw [normalForm_array hdemand]
    intro n hn
    rw [List.length_map]
    exact h n hn
  | object properties required =>
    cases v <;> cases h.kind_eq
    rw [normalForm_object hdemand]
    trivial

/-- A normal form lacks no more than the value. -/
theorem not_lacks_normalForm (resolved : r.resolve? schema = some s) (has : HasForm s form)
    (sound : form.Sound) {v : Json} {name : String} (h : ¬Lacks form v name) :
    ¬Lacks form (r.normalForm schema v) name := by
  intro lacks
  cases form with
  | object properties required =>
    cases v with
    | object members =>
      rw [normalForm_object (demand?_eq resolved has)] at lacks
      cases lacks with
      | member requires absent =>
        refine h (.member requires ?_)
        rw [lookup_normalForm] at absent
        obtain ⟨p, hp⟩ := Option.isSome_iff_exists.mp
          ((Entries.lookup_isSome_iff name properties).mpr (sound.2.2 name requires))
        rwa [hp, Option.bind_some, Option.map_eq_none_iff] at absent
    | _ =>
      rw [normalForm_of_kind_ne resolved has (by rintro ⟨⟩)] at lacks
      cases lacks
  | _ => cases lacks

/-- The normal form of a clean value is clean. -/
theorem clean_normalForm (hr : r.AllFormed) {v : Json} (h : r.Formed schema)
    (clean : r.Clean schema v) : r.Clean schema (r.normalForm schema v) := by
  induction v using Json.part_induction generalizing schema with
  | step v ih =>
    obtain ⟨s, form, resolved, has, sound, parts⟩ := h.resolve hr
    obtain ⟨admits, hlacks, hparts⟩ := (clean_iff resolved has sound).mp clean
    refine (clean_iff resolved has sound).mpr ⟨admits_normalForm resolved has admits,
      fun name => not_lacks_normalForm resolved has sound (hlacks name), ?_⟩
    intro step p u child
    obtain ⟨w, given, rfl⟩ := (child_normalForm_iff resolved has).mp child
    exact ih w given.isPart (parts p given.mem_parts) (hparts step p w given)

end Registry

end ChartDoc
