/-
  Registrations in a row. A registry remembers the registrations that have led to it
  (`Registry.Remembers`): its names are the names that have been registered, in the order of their
  first registration, and the definition of a name is the one registered last under it. One more
  registration keeps this (`Remembers.register`), and so does a run of registrations
  (`Remembers.registerAll`). The relation does not mention how a registry holds its definitions,
  but there is only one registry that remembers given registrations (`Remembers.eq`).
-/
import ChartDoc.Proofs.Json.Parts
import ChartDoc.Schema.Chart
import Mathlib.Data.List.Basic

namespace ChartDoc

/-! ## Latest entries -/

namespace Entries

variable {α : Type} {entries : Entries α} {key other : String} {value value' : α}

/-- `Latest entries key value`: of the entries under the key, the last one holds the value. -/
def Latest (entries : Entries α) (key : String) (value : α) : Prop :=
  ∃ earlier later, entries = earlier ++ (key, value) :: later ∧ key ∉ keys later

theorem keys_append_singleton (entries : Entries α) (key : String) (value : α) :
    keys (entries ++ [(key, value)]) = keys entries ++ [key] := by
  rw [keys, keys, List.map_append, List.map_singleton]

theorem not_latest_nil : ¬Latest [] key value := by
  rintro ⟨earlier, later, h, -⟩
  simp at h

/-- One more entry is the latest under its key and changes nothing under other keys. -/
theorem latest_append_singleton :
    Latest (entries ++ [(key, value)]) other value' ↔
      (other = key ∧ value = value') ∨ (other ≠ key ∧ Latest entries other value') := by
  constructor
  · rintro ⟨earlier, later, h, hlater⟩
    rcases List.eq_nil_or_concat later with rfl | ⟨later, entry, rfl⟩
    · obtain ⟨-, h⟩ := List.append_inj' h rfl
      cases h
      exact .inl ⟨rfl, rfl⟩
    · -- the entry that was added is one of the later ones
      rw [List.concat_eq_append, ← List.cons_append, ← List.append_assoc] at h
      obtain ⟨hentries, hentry⟩ := List.append_inj' h rfl
      cases hentry
      rw [List.concat_eq_append, keys_append_singleton, List.mem_append, not_or,
        List.mem_singleton] at hlater
      exact .inr ⟨hlater.2, earlier, later, hentries, hlater.1⟩
  · rintro (⟨rfl, rfl⟩ | ⟨hne, earlier, later, rfl, hlater⟩)
    · exact ⟨entries, [], rfl, List.not_mem_nil⟩
    · refine ⟨earlier, later ++ [(key, value)], by simp, ?_⟩
      rw [keys_append_singleton, List.mem_append, not_or, List.mem_singleton]
      exact ⟨hlater, hne⟩

/-- Entries with distinct keys are known when the keys and what is found under them are known. -/
theorem eq_filterMap_keys (distinct : entries.Distinct) :
    entries = entries.keys.filterMap fun key => (List.lookup key entries).map (Prod.mk key) := by
  rw [keys, List.filterMap_map]
  calc entries
    _ = entries.filterMap some := List.filterMap_some.symm
    _ = _ := List.filterMap_congr fun entry hentry => by
      rw [Function.comp, (lookup_eq_some_iff distinct).mpr hentry, Option.map_some]

end Entries

namespace Registry

variable {r r' : Registry} {history : Entries Json}

/-! ## What a registry remembers -/

/-- `r.Remembers history`: the registry holds what a history of registrations leaves. -/
structure Remembers (r : Registry) (history : Entries Json) : Prop where
  mem_names_iff : ∀ name, name ∈ r.names ↔ name ∈ history.keys
  /-- The name that was registered first stands first. -/
  order : r.names.Pairwise fun name other =>
    history.keys.idxOf name < history.keys.idxOf other
  get?_eq_some_iff : ∀ name definition,
    r.get? name = some definition ↔ history.Latest name definition

theorem remembers_empty : empty.Remembers [] where
  mem_names_iff _ := Iff.rfl
  order := .nil
  get?_eq_some_iff _ _ := ⟨nofun, fun h => absurd h Entries.not_latest_nil⟩

namespace Remembers

/-- Names at two places are registered first at different times, so they are not the same. -/
theorem nodup (h : r.Remembers history) : r.names.Nodup :=
  h.order.imp fun hlt heq => by
    rw [heq] at hlt
    exact Nat.lt_irrefl _ hlt

/-- What a registry remembers determines it. -/
theorem eq (h : r.Remembers history) (h' : r'.Remembers history) : r = r' := by
  have hnames : r.names = r'.names := by
    have hperm : r.names.Perm r'.names :=
      (List.perm_ext_iff_of_nodup h.nodup h'.nodup).mpr fun name =>
        (h.mem_names_iff name).trans (h'.mem_names_iff name).symm
    exact List.Perm.eq_of_pairwise (fun _ _ _ _ hlt hgt => absurd hgt (Nat.lt_asymm hlt)) h.order
      h'.order hperm
  have hget (name : String) : r.get? name = r'.get? name :=
    Option.ext fun definition => by rw [h.get?_eq_some_iff, h'.get?_eq_some_iff]
  have hdefinitions : r.definitions = r'.definitions := by
    rw [Entries.eq_filterMap_keys r.distinct, Entries.eq_filterMap_keys r'.distinct]
    exact congrArg₂ _ (funext fun name => congrArg _ (hget name)) hnames
  obtain ⟨definitions, distinct⟩ := r
  obtain ⟨definitions', distinct'⟩ := r'
  cases hdefinitions
  rfl

/-- A registration is remembered. -/
theorem register (h : r.Remembers history) (name : String) (definition : Json) :
    (r.register name definition).2.Remembers (history ++ [(name, definition)]) where
  mem_names_iff other := by
    rw [names_register, Entries.keys_append_singleton, List.mem_append, ← h.mem_names_iff]
    by_cases hname : name ∈ r.names
    · rw [if_pos hname, List.mem_singleton]
      exact ⟨.inl, fun hmem => hmem.elim id fun heq => heq ▸ hname⟩
    · rw [if_neg hname, List.mem_append]
  order := by
    -- what is registered already was registered first before
    have hold : ∀ other ∈ r.names,
        (history.keys ++ [name]).idxOf other = history.keys.idxOf other :=
      fun other hother => List.idxOf_append_of_mem ((h.mem_names_iff other).mp hother)
    have hkept : r.names.Pairwise fun a b =>
        (history.keys ++ [name]).idxOf a < (history.keys ++ [name]).idxOf b :=
      h.order.imp_of_mem fun ha hb hlt => by rwa [hold _ ha, hold _ hb]
    rw [names_register, Entries.keys_append_singleton]
    split
    · exact hkept
    · rename_i hname
      refine List.pairwise_append.mpr ⟨hkept, List.pairwise_singleton _ _, ?_⟩
      intro a ha b hb
      have hnew : name ∉ history.keys := fun hmem => hname ((h.mem_names_iff name).mpr hmem)
      rw [List.mem_singleton.mp hb, hold a ha, List.idxOf_append_of_notMem hnew]
      exact Nat.lt_of_lt_of_le (List.idxOf_lt_length_of_mem ((h.mem_names_iff a).mp ha))
        (Nat.le_add_right _ _)
  get?_eq_some_iff other definition' := by
    rw [get?_register, Entries.latest_append_singleton, ← h.get?_eq_some_iff]
    by_cases hother : other = name <;> simp [hother]

/-- A run of registrations is remembered. -/
theorem registerAll (h : r.Remembers history) (calls : Entries Json) :
    (r.registerAll calls).Remembers (history ++ calls) := by
  induction calls generalizing r history with
  | nil =>
    rw [List.append_nil]
    exact h
  | cons call calls ih =>
    rw [List.append_cons]
    exact ih (h.register call.1 call.2)

end Remembers

/-! ## Runs -/

/-- Where runs start, with the registrations that are made there already. -/
inductive Origin : Registry → Entries Json → Prop where
  | empty : Origin empty []
  | chart : Origin chart (Shape.propertyJsons chartShapes)

theorem Origin.remembers {start : Registry} {made : Entries Json} (origin : Origin start made) :
    start.Remembers made := by
  cases origin with
  | empty => exact remembers_empty
  | chart => exact remembers_empty.registerAll (Shape.propertyJsons chartShapes)

/-- All that can be asked about a registry goes by its names. -/
structure Coherent (r : Registry) : Prop where
  contains_iff : ∀ name, r.contains name = true ↔ name ∈ r.names
  isSome_get?_iff : ∀ name, (r.get? name).isSome = true ↔ name ∈ r.names
  size_eq : r.size = r.names.length
  isEmpty_iff : r.isEmpty = true ↔ r.size = 0

theorem coherent (r : Registry) : r.Coherent where
  contains_iff _ := List.contains_iff_mem
  isSome_get?_iff name := Entries.lookup_isSome_iff name r.definitions
  size_eq := (List.length_map _).symm
  isEmpty_iff := by rw [isEmpty, size, List.isEmpty_iff, List.length_eq_zero_iff]

/-- `r.Registers name definition replaced r'`: a registration gives back what the name meant before,
    and afterwards the name means the new definition. Every other name means what it did, and the
    names that were there keep their places. -/
structure Registers (r : Registry) (name : String) (definition : Json) (replaced : Option Json)
    (r' : Registry) : Prop where
  replaced_eq : replaced = r.get? name
  get?_self : r'.get? name = some definition
  get?_other : ∀ other, other ≠ name → r'.get? other = r.get? other
  place_self : ∀ i : Nat, r.names[i]? = some name → r'.names[i]? = some name
  place_other : ∀ other, other ≠ name → ∀ i : Nat,
    r'.names[i]? = some other ↔ r.names[i]? = some other

theorem registers_register (r : Registry) (name : String) (definition : Json) :
    r.Registers name definition (r.register name definition).1
      (r.register name definition).2 where
  replaced_eq := r.register_fst name definition
  get?_self := by rw [get?_register, if_pos rfl]
  get?_other other hne := by rw [get?_register, if_neg hne]
  place_self i hi := by rwa [names_register, if_pos (List.mem_of_getElem? hi)]
  place_other other hne i := by
    rw [names_register]
    split
    · exact Iff.rfl
    · -- the new name is behind the others
      rw [List.getElem?_append]
      split
      · exact Iff.rfl
      · rename_i hi
        rw [List.getElem?_eq_none (Nat.le_of_not_lt hi), List.getElem?_singleton]
        split <;> simp [hne.symm]

/-- However many registrations are made, from nothing or from the definitions of chart documents:
    each name that was registered stands once among the names, in the order of the first
    registrations, and means what was registered last under it. No other registry is like that.
    All observers agree about the names. The next registration gives back what its name means, and
    changes neither the meaning nor the place of any other name. -/
theorem registerAll_remembers {start : Registry} {made : Entries Json} (origin : Origin start made)
    (calls : Entries Json) :
    (start.registerAll calls).Remembers (made ++ calls) ∧
    (∀ r : Registry, r.Remembers (made ++ calls) → r = start.registerAll calls) ∧
    (start.registerAll calls).names.Nodup ∧
    (start.registerAll calls).Coherent ∧
    ∀ name definition, (start.registerAll calls).Registers name definition
      ((start.registerAll calls).register name definition).1
      ((start.registerAll calls).register name definition).2 := by
  have remembers := origin.remembers.registerAll calls
  exact ⟨remembers, fun r h => h.eq remembers, remembers.nodup, coherent _,
    registers_register _⟩

/-- Registrations of a new name, of a name of chart documents, and of the new name again. -/
def themeCalls : Entries Json :=
  [("Theme", .null), ("Axis", .bool true), ("Theme", .bool false)]

/-- The registry after these, with the new name registered once more. -/
def darkRegistry : Registry :=
  ((chart.registerAll themeCalls).register "Theme" (.string "dark")).2

theorem registerAll_remembers_themeCalls :
    Origin chart (Shape.propertyJsons chartShapes) ∧
      empty.registerAll (Shape.propertyJsons chartShapes ++ themeCalls) =
        chart.registerAll themeCalls ∧
      (chart.registerAll themeCalls).get? "Theme" = some (.bool false) ∧
      ((chart.registerAll themeCalls).register "Theme" (.string "dark")).1 =
        some (.bool false) ∧
      darkRegistry.get? "Theme" = some (.string "dark") ∧
      darkRegistry.get? "Axis" = some (.bool true) ∧
      darkRegistry.names[17]? = some "Theme" ∧ darkRegistry.names[9]? = some "Axis" := by
  obtain ⟨hremembers, honly, -, -, hregisters⟩ := registerAll_remembers .chart themeCalls
  have hdark := hregisters "Theme" (.string "dark")
  have htheme : (chart.registerAll themeCalls).get? "Theme" = some (.bool false) :=
    (hremembers.get?_eq_some_iff _ _).mpr
      ⟨Shape.propertyJsons chartShapes ++ [("Theme", .null), ("Axis", .bool true)], [], by
        rw [List.append_assoc]
        rfl, by decide⟩
  have haxis : (chart.registerAll themeCalls).get? "Axis" = some (.bool true) :=
    (hremembers.get?_eq_some_iff _ _).mpr
      ⟨Shape.propertyJsons chartShapes ++ [("Theme", .null)], [("Theme", .bool false)], by
        rw [List.append_assoc]
        rfl, by decide⟩
  refine ⟨.chart, honly _ (remembers_empty.registerAll _), htheme, hdark.replaced_eq.trans htheme,
    hdark.get?_self, (hdark.get?_other "Axis" (by decide)).trans haxis, hdark.place_self 17 ?_,
    (hdark.place_other "Axis" (by decide) 9).mpr ?_⟩
  · decide +kernel
  · decide +kernel

end Registry

end ChartDoc
