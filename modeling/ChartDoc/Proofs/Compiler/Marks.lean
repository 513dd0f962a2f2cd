/-
  What marks say. An empty text in a mark is no text: the label of a mark with an empty name is
  its identifier, a size channel with an empty text sizes nothing, and a channel or a color with
  an empty text is left out. What is meant by this is stated here without the functions that
  read marks (`SameText`, `Mark.Labelled`, `Mark.IsSized`), and each function is related to it
  once. All of them go through `nonEmpty?`, of which two equations are enough.
-/
import ChartDoc.Document.Mark

namespace ChartDoc

/-! ## Empty texts -/

/-- `SameText x y`: the texts are the same, or neither of them says anything. An empty text says
    no more than an absent one. -/
inductive SameText : Option String → Option String → Prop where
  | said {text : String} (nonempty : text ≠ "") : SameText (some text) (some text)
  | unsaid {x y : Option String} (hx : x = none ∨ x = some "") (hy : y = none ∨ y = some "") :
    SameText x y

theorem nonEmpty?_eq_some_iff {given : Option String} {text : String} :
    nonEmpty? given = some text ↔ given = some text ∧ text ≠ "" := by
  rw [nonEmpty?, Option.filter_eq_some_iff, decide_eq_true_iff]

theorem nonEmpty?_eq_none_iff {given : Option String} :
    nonEmpty? given = none ↔ given = none ∨ given = some "" := by
  cases given <;> simp [nonEmpty?]

theorem nonEmpty?_ne_none_iff {given : Option String} :
    nonEmpty? given ≠ none ↔ ∃ text, given = some text ∧ text ≠ "" := by
  simp only [Option.ne_none_iff_exists', nonEmpty?_eq_some_iff]

/-- Texts are the same when the same is left of them without empty texts. -/
theorem nonEmpty?_eq_iff {x y : Option String} : nonEmpty? x = nonEmpty? y ↔ SameText x y := by
  constructor
  · intro h
    cases hx : nonEmpty? x with
    | none =>
      exact .unsaid (nonEmpty?_eq_none_iff.mp hx) (nonEmpty?_eq_none_iff.mp (h.symm.trans hx))
    | some text =>
      obtain ⟨rfl, nonempty⟩ := nonEmpty?_eq_some_iff.mp hx
      obtain ⟨rfl, -⟩ := nonEmpty?_eq_some_iff.mp (h.symm.trans hx)
      exact .said nonempty
  · rintro (- | ⟨hx, hy⟩)
    · rfl
    · rw [nonEmpty?_eq_none_iff.mpr hx, nonEmpty?_eq_none_iff.mpr hy]

namespace Mark

variable {m n : Mark}

/-! ## Labels -/

/-- `m.Labelled label`: the label is the name of the mark, or the identifier of a mark without a
    name. An empty name is none. -/
inductive Labelled (m : Mark) : String → Prop where
  | named {name : String} (given : m.name = some name) (nonempty : name ≠ "") : m.Labelled name
  | unnamed (h : m.name = none ∨ m.name = some "") : m.Labelled m.id

theorem labelled_displayName (m : Mark) : m.Labelled m.displayName := by
  unfold displayName
  cases h : nonEmpty? m.name with
  | none => exact .unnamed (nonEmpty?_eq_none_iff.mp h)
  | some name =>
    obtain ⟨given, nonempty⟩ := nonEmpty?_eq_some_iff.mp h
    exact .named given nonempty

/-- A mark has one label. -/
theorem Labelled.eq_displayName {label : String} (h : m.Labelled label) :
    label = m.displayName := by
  unfold displayName
  cases h with
  | named given nonempty =>
    rw [nonEmpty?_eq_some_iff.mpr ⟨given, nonempty⟩, Option.getD_some]
  | unnamed h => rw [nonEmpty?_eq_none_iff.mpr h, Option.getD_none]

theorem displayName_eq_iff :
    m.displayName = n.displayName ↔ ∃ label, m.Labelled label ∧ n.Labelled label := by
  constructor
  · exact fun h => ⟨_, m.labelled_displayName, h ▸ n.labelled_displayName⟩
  · rintro ⟨label, hm, hn⟩
    rw [← hm.eq_displayName, ← hn.eq_displayName]

/-! ## Sizes -/

/-- The mark is a scatter with a size channel that is not empty. -/
def IsSized (m : Mark) : Prop :=
  m.geometry = .scatter ∧ ∃ channel, m.encode.size = some channel ∧ channel ≠ ""

theorem isSized_iff :
    m.IsSized ↔ m.geometry = .scatter ∧ (nonEmpty? m.encode.size).isSome = true := by
  rw [IsSized, Option.isSome_iff_ne_none, nonEmpty?_ne_none_iff]

instance (m : Mark) : Decidable m.IsSized :=
  decidable_of_iff _ isSized_iff.symm

end Mark

end ChartDoc
