/-
  Self-contained schema documents. A published document is meant for readers that have nothing
  but the document: they can follow a reference when it consists of the mark and the name of one
  of the document's own definitions (`Json.SelfContained`).

  Publication asks for less. It removes a mark before it looks a name up, so it accepts a
  reference by the bare name, and it copies every definition as it is. So the names in all
  references are defined in the document, but a bare reference stays bare, and the document is
  self-contained exactly when its definitions have none (`publish_selfContained_iff`). The entry
  of the definition that has the key of references as its own name reads like a reference of the
  document, too, if what is registered there is a string.
-/
import ChartDoc.Proofs.Schema.References

namespace ChartDoc

/-- A reference with the mark in front of the name. -/
def Marked (target : String) : Prop :=
  ∃ name, target = referenceMark ++ name

theorem Marked.eq {target : String} (h : Marked target) :
    target = referenceMark ++ referenceName target := by
  obtain ⟨name, rfl⟩ := h
  rw [referenceName_mark]

namespace Json

/-- The definition of a name inside a schema document. -/
def definition? (doc : Json) (name : String) : Option Json :=
  (doc.get? "$defs").bind (get? name)

/-- Every reference in a schema document, at any depth, is the mark and the name of one of the
    document's definitions. -/
def SelfContained (doc : Json) : Prop :=
  ∀ target, doc.Refers target →
    ∃ name, target = referenceMark ++ name ∧ (doc.definition? name).isSome = true

theorem refers_object_iff {members : Entries Json} {target : String} :
    (object members).Refers target ↔
      List.lookup referenceKey members = some (.string target) ∨
        ∃ m ∈ members, m.2.Refers target := by
  constructor
  · intro h
    cases h with
    | own h => exact .inl h
    | part part h =>
      cases part with
      | member hm => exact .inr ⟨_, hm, h⟩
  · rintro (h | ⟨m, hm, h⟩)
    · exact .own h
    · exact .part (.member hm) h

theorem not_refers_string {text target : String} : ¬(string text).Refers target := by
  intro h
  cases h with
  | own h => cases h
  | part part _ => cases part

end Json

namespace Registry

variable {r : Registry} {header : Header} {doc : Json}

/-- The definitions of the document are those of the registry. -/
theorem definition?_schemaDocument (name : String) :
    (r.schemaDocument header).definition? name = r.get? name := rfl

/-- A document refers to its root, and to what its definitions refer to. The entry of a definition
    is read like a reference when it has the name and the form of one. -/
theorem refers_schemaDocument_iff {target : String} :
    (r.schemaDocument header).Refers target ↔
      target = referenceMark ++ header.root ∨ r.get? referenceKey = some (.string target) ∨
        ∃ name d, r.get? name = some d ∧ d.Refers target := by
  have hroot : List.lookup referenceKey
      [("$schema", Json.string schemaDialect), ("$id", .string header.id),
       ("title", .string header.title), ("description", .string header.description),
       (referenceKey, .string (referenceMark ++ header.root)), ("$defs", .object r.definitions)] =
      some (.string (referenceMark ++ header.root)) := rfl
  have hdefinitions : (∃ m ∈ r.definitions, m.2.Refers target) ↔
      ∃ name d, r.get? name = some d ∧ d.Refers target := by
    simp only [get?, Entries.lookup_eq_some_iff r.distinct, Prod.exists]
  rw [schemaDocument, Json.refers_object_iff, hroot]
  simp only [List.mem_cons, List.not_mem_nil, or_false, exists_eq_or_imp, exists_eq_left,
    Json.not_refers_string, false_or, Json.refers_object_iff, hdefinitions, Option.some.injEq,
    Json.string.injEq]
  exact or_congr_left eq_comm

/-- In a published document every reference of a definition, its mark removed if there is one,
    names a definition of the document. The document is self-contained exactly when all those
    references have the mark, and a string that is registered under the key of references is
    itself a marked reference to a definition. -/
theorem publish_selfContained_iff (published : r.publish header = .ok doc) :
    (∀ name d target, doc.definition? name = some d → d.Refers target →
      (doc.definition? (referenceName target)).isSome = true) ∧
    (doc.SelfContained ↔
      (∀ name d target, doc.definition? name = some d → d.Refers target → Marked target) ∧
      ∀ target, doc.definition? referenceKey = some (.string target) →
        Marked target ∧ (doc.definition? (referenceName target)).isSome = true) := by
  obtain ⟨hroot, hclosed, rfl⟩ := publish_eq_ok_iff.mp published
  simp only [definition?_schemaDocument]
  have hnamed : ∀ name d target, r.get? name = some d → d.Refers target →
      (r.get? (referenceName target)).isSome = true := by
    intro name d target hd htarget
    exact (r.contains_iff _).mp (hclosed name d hd target (Json.mem_references_iff.mpr htarget))
  refine ⟨hnamed, ?_, ?_⟩
  · intro h
    refine ⟨fun name d target hd htarget => ?_, fun target hstring => ?_⟩
    · obtain ⟨found, hfound, -⟩ :=
        h target (refers_schemaDocument_iff.mpr (.inr (.inr ⟨name, d, hd, htarget⟩)))
      exact ⟨found, hfound⟩
    · obtain ⟨found, rfl, hdefined⟩ :=
        h target (refers_schemaDocument_iff.mpr (.inr (.inl hstring)))
      rw [referenceName_mark]
      exact ⟨⟨found, rfl⟩, hdefined⟩
  · rintro ⟨hmarked, hstrings⟩ target htarget
    rcases refers_schemaDocument_iff.mp htarget with rfl | hstring | ⟨name, d, hd, hrefers⟩
    · exact ⟨header.root, rfl, (r.contains_iff _).mp hroot⟩
    · obtain ⟨hmark, hdefined⟩ := hstrings target hstring
      exact ⟨referenceName target, hmark.eq, hdefined⟩
    · exact ⟨referenceName target, (hmarked name d target hd hrefers).eq,
        hnamed name d target hd hrefers⟩

/-- Nests, which are lists of nests; the reference that says so is given. -/
def nestSchema (reference : String) : Json :=
  .object [("type", .string "array"), ("items", .object [(referenceKey, .string reference)])]

/-- A registry that defines nests. -/
def nestRegistry (reference : String) : Registry :=
  empty.registerAll [("Nest", nestSchema reference)]

/-- The header of a document about nests. -/
def nestHeader : Header :=
  { Header.chart with root := "Nest" }

theorem eq_of_get?_nestRegistry {reference name : String} {d : Json}
    (h : (nestRegistry reference).get? name = some d) :
    name = "Nest" ∧ d = nestSchema reference := by
  have hmem : (name, d) ∈ [("Nest", nestSchema reference)] := Entries.mem_of_lookup h
  exact Prod.mk.inj (List.mem_singleton.mp hmem)

theorem publish_selfContained_iff_nest :
    (nestRegistry "#/$defs/Nest").publish nestHeader =
        .ok ((nestRegistry "#/$defs/Nest").schemaDocument nestHeader) ∧
      ((nestRegistry "#/$defs/Nest").schemaDocument nestHeader).SelfContained := by
  have hdangling : (nestRegistry "#/$defs/Nest").dangling? = none := by decide +kernel
  have published : (nestRegistry "#/$defs/Nest").publish nestHeader =
      .ok ((nestRegistry "#/$defs/Nest").schemaDocument nestHeader) :=
    publish_eq_ok_iff.mpr ⟨by decide +kernel, dangling?_eq_none_iff.mp hdangling, rfl⟩
  have hreferences : (nestSchema "#/$defs/Nest").references = ["#/$defs/Nest"] := by
    decide +kernel
  refine ⟨published, (publish_selfContained_iff published).2.mpr ⟨?_, ?_⟩⟩
  · intro name d target hd htarget
    rw [definition?_schemaDocument] at hd
    rw [(eq_of_get?_nestRegistry hd).2, ← Json.mem_references_iff, hreferences] at htarget
    exact ⟨"Nest", List.mem_singleton.mp htarget⟩
  · intro target hstring
    rw [definition?_schemaDocument] at hstring
    exact absurd (eq_of_get?_nestRegistry hstring).1 (by decide)

/-- A bare reference is published, and it points nowhere in the document. -/
theorem not_selfContained_bareNest :
    (nestRegistry "Nest").publish nestHeader =
        .ok ((nestRegistry "Nest").schemaDocument nestHeader) ∧
      ¬((nestRegistry "Nest").schemaDocument nestHeader).SelfContained := by
  have hdangling : (nestRegistry "Nest").dangling? = none := by decide +kernel
  refine ⟨publish_eq_ok_iff.mpr ⟨by decide +kernel, dangling?_eq_none_iff.mp hdangling, rfl⟩, ?_⟩
  intro h
  have hrefers : (nestSchema "Nest").Refers "Nest" :=
    Json.mem_references_iff.mp (by decide +kernel)
  obtain ⟨name, hname, -⟩ :=
    h "Nest" (refers_schemaDocument_iff.mpr (.inr (.inr ⟨"Nest", _, rfl, hrefers⟩)))
  have hhead : "Nest".toList.head? = (referenceMark ++ name).toList.head? := by rw [← hname]
  rw [String.toList_append] at hhead
  cases hhead

end Registry

end ChartDoc
