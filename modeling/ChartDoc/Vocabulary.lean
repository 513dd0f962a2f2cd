/-
  Vocabularies: types with finitely many values, each of which has a word of its own. The words
  are what documents, schemas and renderer configurations contain.
-/
import ChartDoc.Json.Basic

namespace ChartDoc

/-- A type whose values are listed and named. -/
class Vocabulary (α : Type) where
  /-- The values, in the order in which schemas list their words. -/
  all : List α
  /-- The word of a value. -/
  word : α → String
  mem_all : ∀ a, a ∈ all
  word_injective : ∀ a b, word a = word b → a = b

namespace Vocabulary

variable {α : Type} [Vocabulary α]

/-- The words of a vocabulary, in order. -/
def words (α : Type) [Vocabulary α] : List String :=
  (all : List α).map word

/-- The value that a word names; the spelling must be exact. -/
def ofWord? (s : String) : Option α :=
  all.find? fun a => word a == s

/-- The word of a value as JSON. -/
def json (a : α) : Json :=
  .string (word a)

/-- The value named by a JSON string. -/
def ofJson? (v : Json) : Option α :=
  v.string?.bind ofWord?

theorem ofWord?_eq_some_iff {s : String} {a : α} : ofWord? s = some a ↔ word a = s := by
  constructor
  · intro h
    simpa using List.find?_some h
  · intro h
    cases hf : (ofWord? s : Option α) with
    | none =>
      have := List.find?_eq_none.mp hf a (mem_all a)
      simp [h] at this
    | some b =>
      have hb : word b = s := by simpa using List.find?_some hf
      rw [word_injective a b (h.trans hb.symm)]

/-- A word names the value it belongs to. -/
theorem ofWord?_word (a : α) : ofWord? (word a) = some a :=
  ofWord?_eq_some_iff.mpr rfl

/-- The words of the values are all the words there are. -/
theorem ofWord?_isSome_iff (s : String) :
    (ofWord? s : Option α).isSome = true ↔ s ∈ words α := by
  constructor
  · intro h
    obtain ⟨a, ha⟩ := Option.isSome_iff_exists.mp h
    exact List.mem_map.mpr ⟨a, mem_all a, ofWord?_eq_some_iff.mp ha⟩
  · intro h
    obtain ⟨a, _, ha⟩ := List.mem_map.mp h
    exact Option.isSome_iff_exists.mpr ⟨a, ofWord?_eq_some_iff.mpr ha⟩

theorem ofJson?_json (a : α) : ofJson? (json a) = some a :=
  ofWord?_word a

end Vocabulary

end ChartDoc
