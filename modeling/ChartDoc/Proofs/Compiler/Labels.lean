/-
  Labels in legends. Renderers find the series that a label is for by its name, so the labels of a
  legend have to be the names of the series. The two are made apart from each other: the labels
  from the marks by the legend, the names mark by mark by the series. If the author of a legend
  gives no labels, they agree, in order and with repetitions, because both take the label of the
  mark (`Mark.Labelled`): its name, or its identifier if it has none. Labels that the author gives
  are taken as they are, whatever the document draws (`Compiler.compile_labels`).
-/
import ChartDoc.Proofs.Compiler.Edits
import ChartDoc.Proofs.Compiler.Visible

namespace ChartDoc

theorem Legend.not_authored_iff {l : Legend} :
    ¬l.Authored ↔ l.items = none ∨ l.items = some [] := by
  unfold Authored
  rcases l.items with - | (- | ⟨label, labels⟩) <;> simp

open Renderer

/-- The labels that the author of a legend gives. -/
theorem Renderer.Legend.labels_of_items {l : ChartDoc.Legend} {items : List String}
    (given : l.items = some items) (nonempty : items ≠ []) (marks : List Mark) :
    Legend.labels l marks = items := by
  obtain ⟨label, labels, rfl⟩ := List.exists_cons_of_ne_nil nonempty
  rw [Legend.labels, given]

namespace Compiler

theorem legend_config (c : Compiler) {d : Document} {l : ChartDoc.Legend}
    (block : d.legend = some l) : (c.config d).legend = some (.of l d.marks) := by
  show d.legend.map (fun l => Renderer.Legend.of l d.marks) = _
  rw [block, Option.map_some]

/-- Whatever the geometries are, the series are named by the labels of their marks. -/
theorem map_name_allSeries (c : Compiler) (d : Document) :
    (c.config d).allSeries.map Series.name = d.marks.map Mark.displayName := by
  rw [allSeries_config, List.map_map]
  exact List.map_congr_left fun m _ => Series.of_name

/-- A legend block always gives a legend. If it has no items, the labels are the names of the
    series, in order and with repetitions; these are the labels of the marks, so there are none
    exactly when there are no marks. Items are taken as they are, and then the legend is the same
    whatever else is in the document. -/
theorem compile_labels (c : Compiler) {d : Document} {l : ChartDoc.Legend}
    (block : d.legend = some l) :
    ∃ legend, (c.compile d).config.legend = some legend ∧
      (l.items = none ∨ l.items = some [] →
        legend.data = (c.compile d).config.allSeries.map Series.name ∧
        List.Forall₂ Mark.Labelled d.marks legend.data ∧
        (legend.data = [] ↔ d.marks = [])) ∧
      ∀ items, l.items = some items → items ≠ [] →
        legend.data = items ∧
        ∀ (c' : Compiler) (d' : Document), d'.legend = some l →
          (c'.compile d').config.legend = some legend := by
  refine ⟨.of l d.marks, c.legend_config block, ?_, ?_⟩
  · intro absent
    have hdata : (Renderer.Legend.of l d.marks).data = d.marks.map Mark.displayName :=
      Legend.labels_of_not_authored (Legend.not_authored_iff.mpr absent) d.marks
    rw [hdata]
    refine ⟨(c.map_name_allSeries d).symm, ?_, List.map_eq_nil_iff⟩
    rw [List.forall₂_map_right_iff, List.forall₂_same]
    exact fun m _ => m.labelled_displayName
  · intro items given nonempty
    refine ⟨Legend.labels_of_items given nonempty d.marks, fun c' d' block' => ?_⟩
    show (c'.config d').legend = _
    rw [c'.legend_config block', Renderer.Legend.of, Renderer.Legend.of,
      Legend.labels_of_items given nonempty, Legend.labels_of_items given nonempty]

/-- A document with a legend, and marks of which one has a name, one an empty name and one the
    identifier of another and no dataset. -/
def labelledDocument (items : Option (List String)) : Document where
  title := none
  datasets := [⟨"a", [], []⟩]
  marks :=
    [{ Mark.bare "m" "a" .area with name := some "Profit" },
      { Mark.bare "n" "a" .pie with name := some "" }, .bare "n" "b" .bar]
  axes := none
  legend := some ⟨none, some .left, items⟩
  tooltip := none
  grid := none

theorem compile_labels_labelledDocument :
    (labelledDocument (some [])).legend = some ⟨none, some .left, some []⟩ ∧
      (labelledDocument (some ["Loss"])).legend = some ⟨none, some .left, some ["Loss"]⟩ ∧
      (∃ legend,
        ((ofSettings .standard).compile (labelledDocument (some []))).config.legend =
          some legend ∧
        legend.data = ["Profit", "n", "n"]) ∧
      ∃ legend,
        ((ofSettings .standard).compile (labelledDocument (some ["Loss"]))).config.legend =
          some legend ∧
        legend.data = ["Loss"] ∧
        ((ofSettings .standard).compile
          { labelledDocument (some ["Loss"]) with marks := [] }).config.legend = some legend := by
  have block : (labelledDocument (some [])).legend = some ⟨none, some .left, some []⟩ := rfl
  have block' : (labelledDocument (some ["Loss"])).legend =
      some ⟨none, some .left, some ["Loss"]⟩ := rfl
  obtain ⟨legend, hlegend, hderived, -⟩ := compile_labels (ofSettings .standard) block
  obtain ⟨legend', hlegend', -, hgiven⟩ := compile_labels (ofSettings .standard) block'
  obtain ⟨hnames, -, -⟩ := hderived (.inr rfl)
  obtain ⟨hitems, hfixed⟩ := hgiven ["Loss"] rfl (List.cons_ne_nil _ _)
  exact ⟨block, block', ⟨legend, hlegend, hnames⟩, legend', hlegend', hitems, hfixed _ _ rfl⟩

end Compiler

end ChartDoc
