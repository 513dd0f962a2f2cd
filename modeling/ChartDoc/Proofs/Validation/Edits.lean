/-
  Key order and undeclared keys do not matter. A value and what edits make of it are accepted as
  the same document or refused with the same issues, in the same order: the issues are those of
  the walk, which does not see the edits, and an accepted document is determined by the normal
  form of its value (`ofValue_eq_of_edits`).
-/
import ChartDoc.Proofs.Format.Violations
import ChartDoc.Proofs.Validation.RoundTrip
import ChartDoc.Proofs.Walk.Edits

namespace ChartDoc

namespace Document

theorem check_eq_violations (v : Json) :
    Registry.chart.check chartRoot v = Registry.chart.violations reference [] v := by
  have hget : Registry.chart.get? chartRoot = some format.shape.json :=
    Registry.chart_get? chartRoot
  rw [Registry.check, hget]
  exact (Registry.violations_reference format.shape rfl hget [] v).symm

/-- A value in which the walk finds nothing is accepted. -/
theorem exists_ofValue_of_clean {v : Json} (clean : Registry.chart.Clean reference v) :
    ∃ d, ofValue v = .ok d := by
  obtain ⟨⟨d, hread, -⟩, -⟩ := (namedFormat.clean_iff v).mp clean
  exact ⟨d, ofValue_eq_ok_iff_clean.mpr ⟨clean, hread⟩⟩

theorem json_of_ofValue {v : Json} {d : Document} (h : ofValue v = .ok d) :
    d.json = Registry.chart.normalForm reference v := by
  obtain ⟨clean, hread⟩ := ofValue_eq_ok_iff_clean.mp h
  exact namedFormat.write_of_read? v d clean hread

/-- Two values in which the walk finds the same are accepted as the same document or refused with
    the same issues. -/
theorem ofValue_eq_of_indistinct {v w : Json} (h : Registry.chart.Indistinct reference v w) :
    ofValue v = ofValue w := by
  by_cases clean : Registry.chart.Clean reference v
  · obtain ⟨d, hd⟩ := exists_ofValue_of_clean clean
    obtain ⟨e, he⟩ := exists_ofValue_of_clean (h.clean_iff.mp clean)
    have hjson : d.json = e.json := by
      rw [json_of_ofValue hd, json_of_ofValue he, h.normalForm clean]
    have hback := ofValue_json_of_ofValue hd
    rw [hjson, ofValue_json_of_ofValue he] at hback
    rw [hd, he, hback]
  · have hrefused {u : Json} (hu : ¬Registry.chart.Clean reference u) :
        ofValue u = .error (.ofViolations (Registry.chart.violations reference [] u)) := by
      unfold ofValue
      rw [check_eq_violations]
      cases hfound : Registry.chart.violations reference [] u with
      | nil => exact absurd hfound hu
      | cons x xs => rfl
    rw [hrefused clean, hrefused (fun clean' => clean (h.clean_iff.mpr clean')), h.violations]

/-- Whether a value is accepted, as which document, and otherwise with which issues, does not
    depend on the order of the members of its objects, at any depth, or on members that the
    schema does not declare in the objects that it describes. -/
theorem ofValue_eq_of_edits {v w : Json}
    (h : Relation.ReflTransGen (Registry.chart.Edit (some reference)) v w) :
    ofValue v = ofValue w :=
  ofValue_eq_of_indistinct
    (Registry.indistinct_of_edits Registry.chart_allFormed namedFormat.formed h)

/-- The members of the mark in the loose value. -/
def looseMark : Entries Json :=
  [("style", .object [("opacity", .number Shape.oneBound)]), ("encode", .object []),
   ("geometry", .string "bar"), ("datasetId", .string "d"), ("id", .string "m")]

/-- The members of the loose value without its note, for a mark with the given members. -/
def notelessMembers (mark : Entries Json) : Entries Json :=
  [("marks", .array [.object mark]),
   ("datasets", .array
    [.object [("id", .string "d"), ("columns", .array []), ("rows", .array [])]])]

theorem ofValue_eq_of_edits_loose :
    Relation.ReflTransGen (Registry.chart.Edit (some reference)) looseValue
        (.object (notelessMembers looseMark.reverse)) ∧
      ofValue looseValue = ofValue (.object (notelessMembers looseMark.reverse)) := by
  have hresolve : Registry.chart.resolve? reference = some format.shape.json :=
    (Registry.resolve?_reference chartRoot).trans (Registry.chart_get? chartRoot)
  have describes := Registry.demand?_eq hresolve (Shape.hasForm_object _ _ _)
  have hnote : Registry.chart.Edit (some reference) looseValue
      (.object (notelessMembers looseMark)) := by
    show Registry.chart.Edit _ (.object ([] ++ ("note", .null) :: _)) (.object ([] ++ _))
    exact .take describes (by decide)
  have hmark : Registry.chart.Edit (some reference) (.object (notelessMembers looseMark))
      (.object (notelessMembers looseMark.reverse)) := by
    show Registry.chart.Edit _ (.object ([] ++ ("marks", .array ([] ++ _ :: [])) :: _))
      (.object ([] ++ ("marks", .array ([] ++ _ :: [])) :: _))
    refine .member (.item (.permute ?_ looseMark.reverse_perm.symm))
    show (Entries.keys _).Nodup
    decide
  have hedits := (Relation.ReflTransGen.single hnote).tail hmark
  exact ⟨hedits, ofValue_eq_of_edits hedits⟩

end Document

end ChartDoc
