/-
  The issues of a value. Under a registry of formed definitions the walk lists what is violated,
  each location once; the names in the locations are names of properties, so the paths that
  readers see are the texts of the locations and tell them apart.
-/
import ChartDoc.Proofs.Format.Chart
import ChartDoc.Proofs.Validation.Path
import ChartDoc.Proofs.Walk.Enumeration

namespace ChartDoc

open Schema

namespace Registry

variable {r : Registry}

/-- From a formed schema one comes to formed schemas, through plain names. -/
theorem Reaches.plain (hr : r.AllFormed) {schema v q w : Json} {location : Location}
    (reached : r.Reaches schema v location q w) (h : r.Formed schema) :
    location.Plain ∧ r.Formed q := by
  induction reached with
  | here schema v => exact ⟨nofun, h⟩
  | step resolved has child _ ih =>
    obtain ⟨s, form, resolved', has', sound, parts⟩ := h.resolve hr
    cases form_unique resolved has resolved' has'
    obtain ⟨hrest, hq⟩ := ih (parts _ child.mem_parts)
    refine ⟨fun name hname => ?_, hq⟩
    rcases List.mem_cons.mp hname with hstep | hname
    · subst hstep
      cases child with
      | member declared _ =>
        exact sound.2.1 name (List.mem_map_of_mem (Entries.mem_of_lookup declared))
    · exact hrest name hname

theorem Violated.plain (hr : r.AllFormed) {schema v : Json} {location : Location} {fault : Fault}
    (violated : r.Violated schema v location fault) (h : r.Formed schema) : location.Plain := by
  cases violated with
  | own reached _ _ _ => exact (reached.plain hr h).1
  | missing reached resolved has lacks =>
    obtain ⟨hplain, hq⟩ := reached.plain hr h
    obtain ⟨s, form, resolved', has', sound, -⟩ := hq.resolve hr
    cases form_unique resolved has resolved' has'
    cases lacks with
    | member requires _ =>
      intro name hname
      rcases List.mem_append.mp hname with hname | hname
      · exact hplain name hname
      · cases List.mem_singleton.mp hname
        exact sound.2.1 _ (sound.2.2 _ requires)

/-- The check of a value under a registered name finds exactly what is violated. The path of
    each issue is the text of its location, and no path occurs twice. -/
theorem check_enumerates (hr : r.AllFormed) {root : String} (hroot : r.contains root = true)
    (v : Json) :
    (∀ x, x ∈ r.check root v ↔
      ∃ definition, r.get? root = some definition ∧
        r.Violated definition v x.location x.fault) ∧
    (∀ x ∈ r.check root v, x.issue = ⟨x.location.rendering, x.fault.message⟩) ∧
    ((r.check root v).map fun x => x.issue.path).Nodup := by
  obtain ⟨definition, hget⟩ := Option.isSome_iff_exists.mp ((r.contains_iff root).mp hroot)
  have hformed : r.Formed definition := hr root definition hget
  have hcheck : r.check root v = r.violations definition [] v := by rw [check, hget]
  have hmem : ∀ x, x ∈ r.check root v ↔ r.Violated definition v x.location x.fault := by
    intro x
    rw [hcheck]
    exact mem_violations_iff hr hformed
  have hplain : ∀ x ∈ r.check root v, x.location.Plain := fun x hx =>
    ((hmem x).mp hx).plain hr hformed
  have hpath : ∀ x ∈ r.check root v, x.issue.path = x.location.rendering := fun x hx =>
    Location.path_eq_rendering (hplain x hx)
  refine ⟨fun x => ?_, fun x hx => ?_, ?_⟩
  · rw [hmem, hget]
    simp
  · exact congrArg (Issue.mk · x.fault.message) (hpath x hx)
  · have hlocations : ((r.check root v).map Violation.location).Nodup :=
      hcheck ▸ nodup_locations hr hformed v
    refine List.Nodup.map_on ?_ ?_
    · intro x hx y hy hxy
      rw [hpath x hx, hpath y hy] at hxy
      exact List.inj_on_of_nodup_map hlocations hx hy
        (Location.rendering_injective (hplain x hx) (hplain y hy) hxy)
    · exact hlocations.of_map

/-- A document without datasets, with a title that is no text and a mark that is wrong in two
    places. -/
def brokenDocument : Json :=
  .object
    [("title", .bool true),
     ("marks", .array
      [.object
        [("id", .string "m"), ("datasetId", .string "d"), ("geometry", .string "cube"),
         ("encode", .object []),
         ("style", .object [("opacity", .number (.whole 2 (by decide)))])]])]

theorem check_brokenDocument :
    chart.AllFormed ∧ chart.contains chartRoot = true ∧
      (∀ x, x ∈ chart.check chartRoot brokenDocument ↔
        ∃ definition, chart.get? chartRoot = some definition ∧
          chart.Violated definition brokenDocument x.location x.fault) ∧
      (chart.check chartRoot brokenDocument).map (fun x => x.issue.path) =
        ["title", "datasets", "marks[0].geometry", "marks[0].style.opacity"] :=
  ⟨chart_allFormed, by decide, (check_enumerates chart_allFormed (by decide) brokenDocument).1,
    by decide +kernel⟩

end Registry

end ChartDoc
