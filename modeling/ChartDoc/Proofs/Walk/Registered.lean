/-
  Walks in published registries. The walk reports two faults that are no faults of the value: a
  root without a definition, and a reference without one. Publication looks for such references
  in another way than the walk does, once and in all definitions, whatever stands around them.
  When it has found none, the walk stays among closed schemas, and neither fault is reported
  under any registered name and of any value (`check_registered`).

  The messages of the two faults begin unlike those of all others, so a reader of the issues does
  not see them either.
-/
import ChartDoc.Proofs.Schema.References
import ChartDoc.Proofs.Walk.OwnFaults

namespace ChartDoc

/-! ## Faults of registries -/

namespace Fault

/-- Faults of a registry rather than of a value: a name or a reference without a definition. -/
def IsUnregistered : Fault → Prop
  | unregisteredType _ => True
  | unregisteredReference => True
  | _ => False

/-- The letter with which the message of a fault begins. -/
def initial : Fault → Char
  | unregisteredType _ => 't'
  | unregisteredReference => 's'
  | unknownWord _ _ => 'u'
  | wrongType _ _ => 'i'
  | _ => 'm'

theorem head?_append_of_head? {s t : String} {c : Char} (h : s.toList.head? = some c) :
    (s ++ t).toList.head? = some c := by
  rw [String.toList_append, List.head?_append, h, Option.some_or]

theorem head?_message (fault : Fault) : fault.message.toList.head? = some fault.initial := by
  cases fault with
  | malformedText => rfl
  | unregisteredReference => rfl
  | noDatasets => rfl
  | noMarks => rfl
  | opacityOutOfRange given => exact head?_append_of_head? rfl
  | negativeWidth given => exact head?_append_of_head? rfl
  | unregisteredType name => exact head?_append_of_head? (head?_append_of_head? rfl)
  | tooFewItems least => exact head?_append_of_head? (head?_append_of_head? rfl)
  | missingField name => exact head?_append_of_head? (head?_append_of_head? rfl)
  | _ => exact head?_append_of_head? (head?_append_of_head? (head?_append_of_head? rfl))

/-- A fault is one of a registry exactly when its message begins as theirs do. -/
theorem isUnregistered_iff_initial (fault : Fault) :
    fault.IsUnregistered ↔ fault.initial = 't' ∨ fault.initial = 's' := by
  cases fault <;> simp [IsUnregistered, initial]

/-- No other fault has the message of a fault of a registry. -/
theorem message_ne_of_isUnregistered {fault fault' : Fault} (h : ¬fault.IsUnregistered)
    (h' : fault'.IsUnregistered) : fault.message ≠ fault'.message := by
  intro hmessage
  have hhead := fault.head?_message
  rw [hmessage, head?_message] at hhead
  have hinitial : fault'.initial = fault.initial := Option.some.inj hhead
  rw [isUnregistered_iff_initial, hinitial] at h'
  exact h ((isUnregistered_iff_initial fault).mpr h')

end Fault

/-- What a demand finds in a value itself is a fault of the value. -/
theorem Demand.not_isUnregistered_of_mem_ownFaults {d : Demand} {v : Json} {fault : Fault}
    (h : fault ∈ d.ownFaults v) : ¬fault.IsUnregistered := by
  unfold ownFaults at h
  split at h
  · cases h
  · cases h
  · obtain ⟨least, -, -, rfl⟩ := mem_lengthFaults_iff.mp h
    exact id
  · obtain ⟨words, -, -, rfl⟩ := mem_wordFaults_iff.mp h
    exact id
  · rcases mem_boundFaults_iff.mp h with ⟨m, -, -, rfl⟩ | ⟨m, -, -, rfl⟩
    · exact id
    · exact id
  · cases h
  · rw [List.mem_singleton.mp h]
    exact id

/-! ## The walk among closed schemas -/

namespace Registry

variable {r : Registry}

/-- What is found beyond the value itself is a missing member, or it is found in a part under one
    of the schemas that the demand has for parts. -/
theorem mem_partViolations_cases {here : Location} {d : Demand} {v : Json} {x : Violation}
    (h : x ∈ r.partViolations here d v) :
    (∃ name, x.fault = .missingField name) ∨
      ∃ p ∈ d.parts, ∃ w there, Json.IsPart w v ∧ x ∈ r.violations p there w := by
  unfold partViolations at h
  split at h
  · obtain ⟨property, hproperty, hx⟩ := List.mem_flatMap.mp h
    unfold propertyViolations at hx
    split at hx
    · rename_i w hw
      have hpart := List.mem_map_of_mem (f := Prod.snd) hproperty
      exact .inr ⟨property.2, hpart, w, _, .member (Entries.mem_of_lookup hw), hx⟩
    · split at hx
      · rw [located, List.map_singleton, List.mem_singleton] at hx
        exact .inl ⟨property.1, by rw [hx]⟩
      · cases hx
  · obtain ⟨e, he, hx⟩ := List.mem_flatMap.mp h
    rename_i least schema vs
    have hpart : schema ∈ [schema] := List.mem_singleton_self schema
    exact .inr ⟨schema, hpart, e.1, _, .item (List.fst_mem_of_mem_zipIdx he), hx⟩
  · cases h

/-- Under a closed schema the walk reports faults of the value only. -/
theorem not_isUnregistered_of_mem_violations (hr : r.AllClosed) {s v : Json} (h : r.Closed s)
    {here : Location} {x : Violation} (hx : x ∈ r.violations s here v) :
    ¬x.fault.IsUnregistered := by
  induction v using Json.part_induction generalizing s here with
  | step v ih =>
    obtain ⟨d, hdemand, hparts⟩ := h.demand?_eq_some hr
    rw [violations_eq hdemand] at hx
    rcases List.mem_append.mp hx with hown | hpart
    · obtain ⟨fault, hfault, rfl⟩ := List.mem_map.mp hown
      exact Demand.not_isUnregistered_of_mem_ownFaults hfault
    · rcases mem_partViolations_cases hpart with ⟨name, hname⟩ | ⟨p, hp, w, there, hw, hx⟩
      · rw [hname]
        exact id
      · exact ih w hw (hparts p hp) hx

/-- In a registry that is published, whatever the root of the publication is, the check of any
    value under any registered name reports faults of the value only, and no issue reads as if
    a name or a reference had no definition. -/
theorem check_registered {header : Header} {doc : Json} (published : r.publish header = .ok doc)
    {root : String} (hroot : r.contains root = true) (v : Json) :
    ∀ x ∈ r.check root v, ¬x.fault.IsUnregistered ∧
      ∀ fault : Fault, fault.IsUnregistered → x.issue.message ≠ fault.message := by
  intro x hx
  obtain ⟨-, hr, -⟩ := publish_eq_ok_iff.mp published
  obtain ⟨definition, hget⟩ := Option.isSome_iff_exists.mp ((r.contains_iff root).mp hroot)
  have hviolation : x ∈ r.violations definition [] v := by
    rw [check, hget] at hx
    exact hx
  have hfault := not_isUnregistered_of_mem_violations hr (hr root definition hget) hviolation
  exact ⟨hfault, fun fault h => Fault.message_ne_of_isUnregistered hfault h⟩

/-- Lists of leaves, and a leaf; the reference from the one to the other has no mark. -/
def leavesRegistry : Registry :=
  empty.registerAll
    [("Leaves", .object
      [("type", .string "array"), ("items", .object [(referenceKey, .string "Leaf")])]),
     ("Leaf", Shape.text.json)]

theorem check_registered_leaves :
    leavesRegistry.publish { Header.chart with root := "Leaf" } =
        .ok (leavesRegistry.schemaDocument { Header.chart with root := "Leaf" }) ∧
      leavesRegistry.contains "Leaves" = true ∧
      (∀ x ∈ leavesRegistry.check "Leaves" (.array [.string "a", .null]),
        ¬x.fault.IsUnregistered ∧
          ∀ fault : Fault, fault.IsUnregistered → x.issue.message ≠ fault.message) ∧
      (leavesRegistry.check "Leaves" (.array [.string "a", .null])).map Violation.issue =
        [⟨"$[1]", "invalid type: null, expected string"⟩] := by
  have hdangling : leavesRegistry.dangling? = none := by decide +kernel
  have published : leavesRegistry.publish { Header.chart with root := "Leaf" } =
      .ok (leavesRegistry.schemaDocument { Header.chart with root := "Leaf" }) :=
    publish_eq_ok_iff.mpr ⟨by decide +kernel, dangling?_eq_none_iff.mp hdangling, rfl⟩
  have hroot : leavesRegistry.contains "Leaves" = true := by decide +kernel
  exact ⟨published, hroot, check_registered published hroot _, by decide +kernel⟩

end Registry

end ChartDoc
