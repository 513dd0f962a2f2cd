/-
  Values in which the walk finds nothing. Under a plain schema a value is clean exactly when the
  form of the schema admits it, it lacks no required member, and its parts are clean
  (`clean_iff`). What is bad somewhere in a value is found in the same way, in the value itself
  or in a part (`somewhere_iff`); that is used for null under optional properties and for members
  that no schema declares. All of this depends on a schema through its resolution only.
-/
import ChartDoc.Proofs.Walk.Enumeration

namespace ChartDoc

open Schema

namespace Schema

/-- Whether a form admits a value, whatever the parts of the value are. -/
def Form.Admits : Form → Json → Prop
  | .string words, .string text => ∀ allowed, words = some allowed → text ∈ allowed
  | .number minimum maximum, .number n =>
    (∀ m, minimum = some m → ¬n.toBinary64 < m.toBinary64) ∧
      ∀ m, maximum = some m → ¬m.toBinary64 < n.toBinary64
  | .boolean, .bool _ => True
  | .array _ least, .array vs => ∀ n, least = some n → n ≤ vs.length
  | .object _ _, .object _ => True
  | _, _ => False

/-- Forms that say nothing about parts. -/
def Form.IsLeaf : Form → Prop
  | .array _ _ => False
  | .object _ _ => False
  | _ => True

theorem Form.Admits.kind_eq {form : Form} {v : Json} (h : form.Admits v) : v.kind = form.kind := by
  cases form <;> cases v <;> first | rfl | cases h

/-- A form admits a value exactly when the value does not break it by itself. -/
theorem admits_iff {form : Form} {v : Json} :
    form.Admits v ↔ ∀ fault, ¬OwnFault form v fault := by
  constructor
  · intro h fault broken
    cases broken with
    | wrongType wrong => exact wrong h.kind_eq
    | unknownWord unknown => exact unknown (h _ rfl)
    | belowMinimum below => exact h.1 _ rfl below
    | aboveMaximum above => exact h.2 _ rfl above
    | tooFewItems few => exact Nat.not_le_of_lt few (h _ rfl)
  · intro h
    by_cases hkind : v.kind = form.kind
    · cases form with
      | string words =>
        cases v <;> cases hkind
        rintro allowed rfl
        by_contra hunknown
        exact h _ (.unknownWord hunknown)
      | number minimum maximum =>
        cases v <;> cases hkind
        refine ⟨?_, ?_⟩
        · rintro m rfl below
          exact h _ (.belowMinimum below)
        · rintro m rfl above
          exact h _ (.aboveMaximum above)
      | boolean =>
        cases v <;> cases hkind
        trivial
      | array item least =>
        cases v <;> cases hkind
        rintro n rfl
        by_contra hfew
        exact h _ (.tooFewItems (Nat.lt_of_not_le hfew))
      | object properties required =>
        cases v <;> cases hkind
        trivial
    · exact absurd (.wrongType hkind) (h _)

end Schema

namespace Registry

/-- The walk of a value along a schema finds nothing. -/
def Clean (r : Registry) (schema v : Json) : Prop :=
  r.violations schema [] v = []

variable {r : Registry} {schema s : Json} {form : Form}

theorem clean_iff (resolved : r.resolve? schema = some s) (has : HasForm s form)
    (sound : form.Sound) {v : Json} :
    r.Clean schema v ↔ form.Admits v ∧ (∀ name, ¬Lacks form v name) ∧
      ∀ step p w, Child form v step p w → r.Clean p w := by
  unfold Clean
  rw [violations_eq (demand?_eq resolved has), List.append_eq_nil_iff, admits_iff]
  refine and_congr ?_ ?_
  · rw [located, List.map_eq_nil_iff, List.eq_nil_iff_forall_not_mem]
    simp only [mem_ownFaults_iff]
  · rw [List.eq_nil_iff_forall_not_mem]
    simp only [mem_partViolations_iff sound]
    constructor
    · intro h
      refine ⟨fun name lacks => h _ (.inl ⟨name, lacks, rfl⟩), fun step p w child => ?_⟩
      rw [List.eq_nil_iff_forall_not_mem]
      exact fun y hy => h _ (.inr ⟨step, p, w, y, child, hy, rfl⟩)
    · rintro ⟨hlacks, hchild⟩ x (⟨name, lacks, -⟩ | ⟨step, p, w, y, child, hy, -⟩)
      · exact hlacks name lacks
      · rw [hchild step p w child] at hy
        cases hy

/-- Somewhere in a value, a part is bad under the form of the schema that judges it. -/
def Somewhere (r : Registry) (bad : Form → Json → Prop) (schema v : Json) : Prop :=
  ∃ location q w s form, r.Reaches schema v location q w ∧ r.resolve? q = some s ∧
    HasForm s form ∧ bad form w

variable {bad : Form → Json → Prop}

/-- What is found somewhere is found in the value itself or in a part. -/
theorem somewhere_iff (resolved : r.resolve? schema = some s) (has : HasForm s form) {v : Json} :
    r.Somewhere bad schema v ↔
      bad form v ∨ ∃ step p w, Child form v step p w ∧ r.Somewhere bad p w := by
  constructor
  · rintro ⟨location, q, w, s', form', reached, resolved', has', hbad⟩
    cases reached with
    | here =>
      cases form_unique resolved has resolved' has'
      exact .inl hbad
    | step resolved'' has'' child rest =>
      cases form_unique resolved has resolved'' has''
      exact .inr ⟨_, _, _, child, _, _, _, _, _, rest, resolved', has', hbad⟩
  · rintro (hbad | ⟨step, p, w, child, location, q, u, s', form', reached, resolved', has', hbad⟩)
    · exact ⟨_, _, _, _, _, .here _ _, resolved, has, hbad⟩
    · exact ⟨_, _, _, _, _, .step resolved has child reached, resolved', has', hbad⟩

theorem somewhere_of_resolve?_eq {schema' v : Json}
    (h : r.resolve? schema = r.resolve? schema') (hbad : r.Somewhere bad schema v) :
    r.Somewhere bad schema' v := by
  obtain ⟨location, q, w, s, form, reached, resolved, has, hbad⟩ := hbad
  cases reached with
  | here => exact ⟨_, _, _, _, _, .here _ _, h ▸ resolved, has, hbad⟩
  | step resolved' has' child rest =>
    exact ⟨_, _, _, _, _, .step (h ▸ resolved') has' child rest, resolved, has, hbad⟩

/-- Null under an optional property is found in the value itself or in a part. -/
theorem holdsNull_iff (resolved : r.resolve? schema = some s) (has : HasForm s form) {v : Json} :
    r.HoldsNull schema v ↔
      NullMember form v ∨ ∃ step p w, Child form v step p w ∧ r.HoldsNull p w :=
  somewhere_iff resolved has

/-! ## By the kind of the form -/

theorem not_child_of_leaf (leaf : form.IsLeaf) {v p w : Json} {step : Step} :
    ¬Child form v step p w := by
  intro child
  cases child <;> exact leaf.elim

theorem clean_leaf_iff (resolved : r.resolve? schema = some s) (has : HasForm s form)
    (sound : form.Sound) (leaf : form.IsLeaf) {v : Json} :
    r.Clean schema v ↔ form.Admits v := by
  rw [clean_iff resolved has sound]
  refine ⟨fun h => h.1, fun h => ⟨h, ?_, ?_⟩⟩
  · intro name lacks
    cases lacks
    exact leaf
  · exact fun step p w child => absurd child (not_child_of_leaf leaf)

theorem not_holdsNull_leaf (resolved : r.resolve? schema = some s) (has : HasForm s form)
    (leaf : form.IsLeaf) (v : Json) : ¬r.HoldsNull schema v := by
  rw [holdsNull_iff resolved has]
  rintro (null | ⟨step, p, w, child, -⟩)
  · cases null
    exact leaf
  · exact not_child_of_leaf leaf child

theorem not_holdsStray_leaf (resolved : r.resolve? schema = some s) (has : HasForm s form)
    (leaf : form.IsLeaf) (v : Json) : ¬r.HoldsStray schema v := by
  rintro hstray
  rcases (somewhere_iff resolved has).mp hstray with stray | ⟨step, p, w, child, -⟩
  · cases stray
    exact leaf
  · exact not_child_of_leaf leaf child

theorem clean_array_iff {item : Json} {least : Option Nat} (resolved : r.resolve? schema = some s)
    (has : HasForm s (.array item least)) {v : Json} :
    r.Clean schema v ↔ ∃ vs, v = .array vs ∧ (∀ n, least = some n → n ≤ vs.length) ∧
      ∀ w ∈ vs, r.Clean item w := by
  rw [clean_iff resolved has trivial]
  constructor
  · rintro ⟨hadmits, -, hparts⟩
    cases v with
    | array vs =>
      refine ⟨vs, rfl, hadmits, fun w hw => ?_⟩
      obtain ⟨i, hi⟩ := List.getElem?_of_mem hw
      exact hparts _ _ _ (.item hi)
    | _ => cases hadmits
  · rintro ⟨vs, rfl, hleast, hitems⟩
    refine ⟨hleast, nofun, ?_⟩
    intro step p w child
    cases child with
    | item given => exact hitems w (List.mem_of_getElem? given)

/-- The parts of an array are its items. -/
theorem exists_child_array_iff {item : Json} {least : Option Nat} {vs : List Json}
    {P : Json → Json → Prop} :
    (∃ step p w, Child (.array item least) (.array vs) step p w ∧ P p w) ↔
      ∃ w ∈ vs, P item w := by
  constructor
  · rintro ⟨step, p, w, child, hw⟩
    cases child with
    | item given => exact ⟨w, List.mem_of_getElem? given, hw⟩
  · rintro ⟨w, hmem, hw⟩
    obtain ⟨i, hi⟩ := List.getElem?_of_mem hmem
    exact ⟨_, _, w, .item hi, hw⟩

theorem holdsNull_array_iff {item : Json} {least : Option Nat}
    (resolved : r.resolve? schema = some s) (has : HasForm s (.array item least))
    {vs : List Json} : r.HoldsNull schema (.array vs) ↔ ∃ w ∈ vs, r.HoldsNull item w := by
  rw [holdsNull_iff resolved has, exists_child_array_iff]
  exact or_iff_right nofun

theorem holdsStray_array_iff {item : Json} {least : Option Nat}
    (resolved : r.resolve? schema = some s) (has : HasForm s (.array item least))
    {vs : List Json} : r.HoldsStray schema (.array vs) ↔ ∃ w ∈ vs, r.HoldsStray item w := by
  refine (somewhere_iff resolved has).trans ?_
  rw [exists_child_array_iff]
  exact or_iff_right nofun

theorem clean_object_iff {properties : Entries Json} {required : List String}
    (resolved : r.resolve? schema = some s) (has : HasForm s (.object properties required))
    (sound : (Form.object properties required).Sound) {v : Json} :
    r.Clean schema v ↔ ∃ members, v = .object members ∧
      (∀ p ∈ properties, ∀ w, List.lookup p.1 members = some w → r.Clean p.2 w) ∧
      ∀ name ∈ required, List.lookup name members ≠ none := by
  rw [clean_iff resolved has sound]
  constructor
  · rintro ⟨hadmits, hlacks, hparts⟩
    cases v with
    | object members =>
      refine ⟨members, rfl, fun p hp w given => ?_, fun name requires absent => ?_⟩
      · exact hparts _ _ _ (.member ((Entries.lookup_eq_some_iff sound.1).mpr hp) given)
      · exact hlacks name (.member requires absent)
    | _ => cases hadmits
  · rintro ⟨members, rfl, hparts, hrequired⟩
    refine ⟨trivial, fun name lacks => ?_, fun step p w child => ?_⟩
    · cases lacks with
      | member requires absent => exact hrequired name requires absent
    · cases child with
      | member declared given => exact hparts _ (Entries.mem_of_lookup declared) w given

theorem holdsNull_object_iff {properties : Entries Json} {required : List String}
    (resolved : r.resolve? schema = some s) (has : HasForm s (.object properties required))
    (distinct : properties.Distinct) {members : Entries Json} :
    r.HoldsNull schema (.object members) ↔ ∃ p ∈ properties,
      (p.1 ∉ required ∧ List.lookup p.1 members = some .null) ∨
        ∃ w, List.lookup p.1 members = some w ∧ r.HoldsNull p.2 w := by
  rw [holdsNull_iff resolved has]
  constructor
  · rintro (null | ⟨step, p, w, child, hw⟩)
    · cases null with
      | member declared optional null =>
        exact ⟨_, Entries.mem_of_lookup declared, .inl ⟨optional, null⟩⟩
    · cases child with
      | member declared given => exact ⟨_, Entries.mem_of_lookup declared, .inr ⟨w, given, hw⟩⟩
  · rintro ⟨⟨name, p⟩, hp, h⟩
    have declared := (Entries.lookup_eq_some_iff distinct).mpr hp
    rcases h with ⟨optional, null⟩ | ⟨w, given, hw⟩
    · exact .inl (.member declared optional null)
    · exact .inr ⟨_, p, w, .member declared given, hw⟩

theorem holdsStray_object_iff {properties : Entries Json} {required : List String}
    (resolved : r.resolve? schema = some s) (has : HasForm s (.object properties required))
    {members : Entries Json} : r.HoldsStray schema (.object members) ↔
      (∃ name ∈ members.keys, name ∉ properties.keys) ∨
        ∃ name p w, List.lookup name properties = some p ∧ List.lookup name members = some w ∧
          r.HoldsStray p w := by
  refine (somewhere_iff resolved has).trans (or_congr ?_ ?_)
  · constructor
    · intro stray
      cases stray with
      | member given undeclared => exact ⟨_, given, undeclared⟩
    · rintro ⟨name, given, undeclared⟩
      exact .member given undeclared
  · constructor
    · rintro ⟨step, p, w, child, hw⟩
      cases child with
      | member declared given => exact ⟨_, p, w, declared, given, hw⟩
    · rintro ⟨name, p, w, declared, given, hw⟩
      exact ⟨_, p, w, .member declared given, hw⟩

/-! ## Schemas with the same resolution -/

theorem clean_congr {schema' : Json} (h : r.resolve? schema = r.resolve? schema') {v : Json} :
    r.Clean schema v ↔ r.Clean schema' v := by
  have hd : r.demand? schema = r.demand? schema' := by
    rw [demand?, demand?, h]
  unfold Clean
  cases hs : r.demand? schema with
  | none => rw [violations_of_demand?_eq_none hs, violations_of_demand?_eq_none (hd ▸ hs)]
  | some d => rw [violations_eq hs, violations_eq (hd ▸ hs)]

theorem holdsNull_of_resolve?_eq {schema' v : Json}
    (h : r.resolve? schema = r.resolve? schema') (hnull : r.HoldsNull schema v) :
    r.HoldsNull schema' v :=
  somewhere_of_resolve?_eq h hnull

theorem holdsStray_congr {schema' : Json} (h : r.resolve? schema = r.resolve? schema') {v : Json} :
    r.HoldsStray schema v ↔ r.HoldsStray schema' v :=
  ⟨somewhere_of_resolve?_eq h, somewhere_of_resolve?_eq h.symm⟩

end Registry

end ChartDoc
