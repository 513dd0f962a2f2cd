/-
  Edits that the walk does not see. The walk reads the members of an object by their names, and
  only those that the schema declares; so nothing that it finds depends on the order of members,
  or on members that are not declared. An `Edit` changes one of these things at one place in a
  value. Two values are `Indistinct` when the walk finds the same in both, in the same order, and
  they have the same normal form if it finds nothing; the values before and after an edit are
  (`Edit.indistinct`).
-/
import ChartDoc.Proofs.Walk.NormalForm
import Mathlib.Data.List.Forall2
import Mathlib.Logic.Relation

namespace ChartDoc

open Schema

namespace Entries

variable {α : Type}

/-- An entry is not seen under other keys. -/
theorem lookup_append_cons_of_ne {key other : String} (h : other ≠ key) (value : α)
    (before after : Entries α) :
    List.lookup other (before ++ (key, value) :: after) = List.lookup other (before ++ after) := by
  rw [List.lookup_append, List.lookup_append, lookup_cons, if_neg h]

end Entries

namespace Registry

/-- The schema that judges the member under a name, in the objects that a schema judges. -/
def memberSchema? (r : Registry) (name : String) (schema : Json) : Option Json :=
  match r.demand? schema with
  | some (.object properties _) => List.lookup name properties
  | _ => none

/-- The schema that judges the items, in the arrays that a schema judges. -/
def itemSchema? (r : Registry) (schema : Json) : Option Json :=
  match r.demand? schema with
  | some (.array _ item) => item
  | _ => none

/-- `Edit r schema v w`: one edit leads from the value `v`, which the schema judges if there is
    one, to the value `w`. The edit puts the members of an object into another order, or puts
    into an object that the schema describes as an object a member that it does not declare, or
    takes such a member out; or it is an edit of a part. Members may be put into another order
    everywhere, also in parts that no schema judges. -/
inductive Edit (r : Registry) : Option Json → Json → Json → Prop where
  | permute {schema : Option Json} {ms ns : Entries Json} (distinct : ms.Distinct)
    (perm : ms.Perm ns) : Edit r schema (.object ms) (.object ns)
  | put {schema w : Json} {name : String} {properties : Entries Json} {required : List String}
    {before after : Entries Json}
    (describes : r.demand? schema = some (.object properties required))
    (undeclared : name ∉ properties.keys) :
    Edit r (some schema) (.object (before ++ after)) (.object (before ++ (name, w) :: after))
  | take {schema v : Json} {name : String} {properties : Entries Json} {required : List String}
    {before after : Entries Json}
    (describes : r.demand? schema = some (.object properties required))
    (undeclared : name ∉ properties.keys) :
    Edit r (some schema) (.object (before ++ (name, v) :: after)) (.object (before ++ after))
  | item {schema : Option Json} {v w : Json} {before after : List Json}
    (h : Edit r (schema.bind r.itemSchema?) v w) :
    Edit r schema (.array (before ++ v :: after)) (.array (before ++ w :: after))
  | member {schema : Option Json} {name : String} {v w : Json} {before after : Entries Json}
    (h : Edit r (schema.bind (r.memberSchema? name)) v w) :
    Edit r schema (.object (before ++ (name, v) :: after)) (.object (before ++ (name, w) :: after))

/-- The walk finds the same in two values, and if it finds nothing, they have the same normal
    form. -/
structure Indistinct (r : Registry) (schema v w : Json) : Prop where
  violations : ∀ here, r.violations schema here v = r.violations schema here w
  normalForm : r.Clean schema v → r.normalForm schema v = r.normalForm schema w

variable {r : Registry} {schema s : Json} {form : Form}

namespace Indistinct

variable {u v w : Json}

theorem refl (v : Json) : r.Indistinct schema v v :=
  ⟨fun _ => rfl, fun _ => rfl⟩

theorem clean_iff (h : r.Indistinct schema v w) : r.Clean schema v ↔ r.Clean schema w := by
  unfold Clean
  rw [h.violations]

theorem symm (h : r.Indistinct schema v w) : r.Indistinct schema w v :=
  ⟨fun here => (h.violations here).symm, fun clean => (h.normalForm (h.clean_iff.mpr clean)).symm⟩

theorem trans (h : r.Indistinct schema u v) (h' : r.Indistinct schema v w) :
    r.Indistinct schema u w :=
  ⟨fun here => (h.violations here).trans (h'.violations here),
    fun clean => (h.normalForm clean).trans (h'.normalForm (h.clean_iff.mp clean))⟩

theorem rel_refl (x : Option Json) : Option.Rel (r.Indistinct schema) x x := by
  cases x with
  | none => exact .none
  | some v => exact .some (.refl v)

end Indistinct

/-! ## Values with indistinct parts -/

theorem partViolations_of_kind_ne {v : Json} (h : v.kind ≠ form.kind) (here : Location) :
    r.partViolations here form.demand v = [] := by
  cases form <;> cases v <;> first | rfl | exact absurd rfl h

/-- Two values of the same wrong kind are indistinct. -/
theorem indistinct_of_kind_ne (resolved : r.resolve? schema = some s) (has : HasForm s form)
    (sound : form.Sound) {v w : Json} (hsame : v.kind = w.kind) (hne : v.kind ≠ form.kind) :
    r.Indistinct schema v w := by
  have hdemand := demand?_eq resolved has
  constructor
  · intro here
    rw [violations_eq hdemand, violations_eq hdemand, ownFaults_of_kind_ne hne,
      ownFaults_of_kind_ne (hsame ▸ hne), partViolations_of_kind_ne hne,
      partViolations_of_kind_ne (hsame ▸ hne), hsame]
  · intro clean
    exact absurd ((clean_iff resolved has sound).mp clean).1.kind_eq hne

/-- Objects are indistinct when they are under every declared name. -/
theorem indistinct_object {properties ms ns : Entries Json} {required : List String}
    (resolved : r.resolve? schema = some s) (has : HasForm s (.object properties required))
    (sound : (Form.object properties required).Sound)
    (h : ∀ p ∈ properties,
      Option.Rel (r.Indistinct p.2) (List.lookup p.1 ms) (List.lookup p.1 ns)) :
    r.Indistinct schema (.object ms) (.object ns) := by
  have hdemand := demand?_eq resolved has
  constructor
  · intro here
    rw [violations_eq hdemand, violations_eq hdemand]
    show [] ++ properties.flatMap (r.propertyViolations required ms here) =
      [] ++ properties.flatMap (r.propertyViolations required ns here)
    congr 1
    refine List.flatMap_congr fun p hp => ?_
    have hrel := h p hp
    unfold propertyViolations
    generalize List.lookup p.1 ms = before at hrel ⊢
    generalize List.lookup p.1 ns = after at hrel ⊢
    cases hrel with
    | none => rfl
    | some same => exact same.violations _
  · intro clean
    obtain ⟨_, ⟨⟩, hparts, -⟩ := (clean_object_iff resolved has sound).mp clean
    rw [normalForm_object hdemand, normalForm_object hdemand]
    congr 1
    refine List.filterMap_congr fun p hp => ?_
    have hrel := h p hp
    have hclean := hparts p hp
    generalize List.lookup p.1 ms = before at hrel hclean ⊢
    generalize List.lookup p.1 ns = after at hrel ⊢
    cases hrel with
    | none => rfl
    | some same => rw [Option.map_some, Option.map_some, same.normalForm (hclean _ rfl)]

theorem flatMap_violations_eq {item : Json} {vs ws : List Json}
    (h : List.Forall₂ (r.Indistinct item) vs ws) (here : Location) (position : Nat) :
    ((vs.zipIdx position).flatMap fun e => r.violations item (here ++ [.index e.2]) e.1) =
      (ws.zipIdx position).flatMap fun e => r.violations item (here ++ [.index e.2]) e.1 := by
  induction h generalizing position with
  | nil => rfl
  | cons same _ ih =>
    rw [List.zipIdx_cons, List.zipIdx_cons, List.flatMap_cons, List.flatMap_cons, ih,
      same.violations]

theorem map_normalForm_eq {item : Json} {vs ws : List Json}
    (h : List.Forall₂ (r.Indistinct item) vs ws) (clean : ∀ v ∈ vs, r.Clean item v) :
    vs.map (r.normalForm item) = ws.map (r.normalForm item) := by
  induction h with
  | nil => rfl
  | cons same _ ih =>
    obtain ⟨hfirst, hrest⟩ := List.forall_mem_cons.mp clean
    rw [List.map_cons, List.map_cons, same.normalForm hfirst, ih hrest]

/-- Arrays are indistinct when their items are, one by one. -/
theorem indistinct_array {item : Json} {least : Option Nat} {vs ws : List Json}
    (resolved : r.resolve? schema = some s) (has : HasForm s (.array item least))
    (h : List.Forall₂ (r.Indistinct item) vs ws) : r.Indistinct schema (.array vs) (.array ws) := by
  have hdemand := demand?_eq resolved has
  constructor
  · intro here
    rw [violations_eq hdemand, violations_eq hdemand]
    show located here (Demand.lengthFaults least vs.length) ++ _ =
      located here (Demand.lengthFaults least ws.length) ++ _
    rw [h.length_eq]
    exact congrArg _ (flatMap_violations_eq h here 0)
  · intro clean
    obtain ⟨_, ⟨⟩, -, hitems⟩ := (clean_array_iff resolved has).mp clean
    rw [normalForm_array hdemand, normalForm_array hdemand, map_normalForm_eq h hitems]

/-! ## Edits under formed schemas -/

/-- Objects under a formed schema are indistinct when they are under every name that it declares,
    if it describes objects at all. -/
theorem Formed.indistinct_object (hr : r.AllFormed) (h : r.Formed schema) {ms ns : Entries Json}
    (members : ∀ properties required, r.demand? schema = some (.object properties required) →
      ∀ name p, List.lookup name properties = some p → r.Formed p →
        Option.Rel (r.Indistinct p) (List.lookup name ms) (List.lookup name ns)) :
    r.Indistinct schema (.object ms) (.object ns) := by
  obtain ⟨s, form, resolved, has, sound, parts⟩ := h.resolve hr
  have hdemand := demand?_eq resolved has
  by_cases hkind : Json.Kind.object = form.kind
  · cases form with
    | object properties required =>
      refine Registry.indistinct_object resolved has sound fun p hp => ?_
      exact members properties required hdemand p.1 p.2
        ((Entries.lookup_eq_some_iff sound.1).mpr hp) (parts p.2 (List.mem_map_of_mem hp))
    | _ => cases hkind
  · exact indistinct_of_kind_ne resolved has sound rfl hkind

/-- Arrays under a formed schema are indistinct when their items are, if it describes arrays. -/
theorem Formed.indistinct_array (hr : r.AllFormed) (h : r.Formed schema) {vs ws : List Json}
    (items : ∀ least item, r.demand? schema = some (.array least (some item)) → r.Formed item →
      List.Forall₂ (r.Indistinct item) vs ws) : r.Indistinct schema (.array vs) (.array ws) := by
  obtain ⟨s, form, resolved, has, sound, parts⟩ := h.resolve hr
  have hdemand := demand?_eq resolved has
  by_cases hkind : Json.Kind.array = form.kind
  · cases form with
    | array item least =>
      exact Registry.indistinct_array resolved has
        (items least item hdemand (parts item List.mem_cons_self))
    | _ => cases hkind
  · exact indistinct_of_kind_ne resolved has sound rfl hkind

/-- A member that is not declared is not seen. -/
theorem Formed.indistinct_put (hr : r.AllFormed) (h : r.Formed schema) {properties : Entries Json}
    {required : List String} (describes : r.demand? schema = some (.object properties required))
    {name : String} (undeclared : name ∉ properties.keys) (w : Json)
    (before after : Entries Json) :
    r.Indistinct schema (.object (before ++ after)) (.object (before ++ (name, w) :: after)) := by
  refine h.indistinct_object hr fun properties' required' hdemand other p declared _ => ?_
  rw [describes] at hdemand
  cases hdemand
  have hother : other ≠ name := by
    rintro rfl
    exact undeclared ((Entries.lookup_isSome_iff _ _).mp (by rw [declared]; rfl))
  rw [Entries.lookup_append_cons_of_ne hother]
  exact Indistinct.rel_refl _

/-- The walk does not tell the values before and after an edit apart. -/
theorem Edit.indistinct (hr : r.AllFormed) {judge : Option Json} {v w : Json}
    (h : r.Edit judge v w) :
    ∀ schema, judge = some schema → r.Formed schema → r.Indistinct schema v w := by
  induction h with
  | permute distinct perm =>
    intro schema _ formed
    refine formed.indistinct_object hr fun _ _ _ name p _ _ => ?_
    rw [Entries.lookup_perm distinct perm]
    exact Indistinct.rel_refl _
  | put describes undeclared =>
    rintro schema ⟨⟩ formed
    exact formed.indistinct_put hr describes undeclared _ _ _
  | take describes undeclared =>
    rintro schema ⟨⟩ formed
    exact (formed.indistinct_put hr describes undeclared _ _ _).symm
  | @item judge v w before after _ ih =>
    rintro schema rfl formed
    refine formed.indistinct_array hr fun least item hdemand hitem => ?_
    have hjudge : (some schema).bind r.itemSchema? = some item := by
      rw [Option.bind_some, itemSchema?, hdemand]
    have hsame (vs : List Json) : List.Forall₂ (r.Indistinct item) vs vs :=
      List.forall₂_same.mpr fun v _ => Indistinct.refl v
    exact List.rel_append (hsame before) (.cons (ih item hjudge hitem) (hsame after))
  | @member judge name v w before after _ ih =>
    rintro schema rfl formed
    refine formed.indistinct_object hr fun properties required hdemand other p declared hp => ?_
    by_cases hother : other = name
    · subst hother
      have hjudge : (some schema).bind (r.memberSchema? other) = some p := by
        rw [Option.bind_some, memberSchema?, hdemand]
        exact declared
      rw [List.lookup_append, List.lookup_append, Entries.lookup_cons, if_pos rfl,
        Entries.lookup_cons, if_pos rfl]
      -- an earlier member of the same name hides the one that is edited
      cases List.lookup other before with
      | some u => exact Indistinct.rel_refl _
      | none => exact .some (ih p hjudge hp)
    · rw [Entries.lookup_append_cons_of_ne hother, Entries.lookup_append_cons_of_ne hother]
      exact Indistinct.rel_refl _

/-- The walk does not tell the values before and after some edits apart. -/
theorem indistinct_of_edits (hr : r.AllFormed) (formed : r.Formed schema) {v w : Json}
    (h : Relation.ReflTransGen (r.Edit (some schema)) v w) : r.Indistinct schema v w := by
  induction h with
  | refl => exact .refl v
  | tail _ edit ih => exact ih.trans (edit.indistinct hr schema rfl formed)

end Registry

end ChartDoc
