/-
  Registries of schema definitions. A registry holds named definitions in the order in which
  the names were first registered; a definition is any JSON value. A reference is a string
  under the key `$ref`; it names a definition, with or without the mark that published
  schemas put in front of the name.
-/
import ChartDoc.Json.Basic

namespace ChartDoc

/-- The key of a reference. -/
def referenceKey : String := "$ref"

/-- The mark in front of the name in published references. -/
def referenceMark : String := "#/$defs/"

/-- The name in a reference: the text after the mark, or the whole text if there is no mark. -/
def referenceName (target : String) : String :=
  if referenceMark.toList.isPrefixOf target.toList then
    String.ofList (target.toList.drop referenceMark.toList.length)
  else target

/-- The mark is removed once. -/
theorem referenceName_mark (name : String) : referenceName (referenceMark ++ name) = name := by
  simp [referenceName, String.toList_append]

/-- Named definitions in the order of their registration. -/
structure Registry where
  definitions : Entries Json
  distinct : definitions.Distinct

namespace Registry

/-- The registry without definitions. -/
def empty : Registry :=
  ⟨[], List.nodup_nil⟩

/-- Registers a definition, and gives the one it replaces. A replacement keeps its place. -/
def register (r : Registry) (name : String) (definition : Json) : Option Json × Registry :=
  ((r.definitions.put name definition).1,
    ⟨(r.definitions.put name definition).2, by
      rw [Entries.put_eq]
      exact r.distinct.insert name definition⟩)

/-- The registry after the registration of a list of definitions, in order. -/
def registerAll (r : Registry) (definitions : List (String × Json)) : Registry :=
  definitions.foldl (fun r entry => (r.register entry.1 entry.2).2) r

/-- The definition of a name. -/
def get? (r : Registry) (name : String) : Option Json :=
  List.lookup name r.definitions

/-- Whether a name is registered. -/
def contains (r : Registry) (name : String) : Bool :=
  r.definitions.keys.contains name

/-- The registered names, in order. -/
def names (r : Registry) : List String :=
  r.definitions.keys

/-- The number of definitions. -/
def size (r : Registry) : Nat :=
  r.definitions.length

/-- Whether there is no definition. -/
def isEmpty (r : Registry) : Bool :=
  r.definitions.isEmpty

/-- The schema itself, or the definition that it refers to. Only one reference is followed. -/
def resolve? (r : Registry) (schema : Json) : Option Json :=
  match (schema.get? referenceKey).bind Json.string? with
  | some target => r.get? (referenceName target)
  | none => some schema

/-- A name is registered exactly when it has a definition. -/
theorem contains_iff (r : Registry) (name : String) :
    r.contains name = true ↔ (r.get? name).isSome = true := by
  rw [get?, Entries.lookup_isSome_iff, contains, List.contains_iff_mem]

theorem register_fst (r : Registry) (name : String) (definition : Json) :
    (r.register name definition).1 = r.get? name := by
  simp [register, Entries.put_eq, get?]

theorem register_snd_definitions (r : Registry) (name : String) (definition : Json) :
    (r.register name definition).2.definitions = r.definitions.insert name definition := by
  simp [register, Entries.put_eq]

/-- The definitions after a registration. -/
theorem get?_register (r : Registry) (name : String) (definition : Json) (other : String) :
    (r.register name definition).2.get? other =
      if other = name then some definition else r.get? other := by
  rw [get?, register_snd_definitions]
  by_cases h : other = name
  · rw [if_pos h, h, Entries.lookup_insert_self]
  · rw [if_neg h, Entries.lookup_insert_of_ne h, get?]

/-- The names after a registration. -/
theorem names_register (r : Registry) (name : String) (definition : Json) :
    (r.register name definition).2.names =
      if name ∈ r.names then r.names else r.names ++ [name] := by
  rw [names, register_snd_definitions, Entries.keys_insert, names]

end Registry

end ChartDoc
