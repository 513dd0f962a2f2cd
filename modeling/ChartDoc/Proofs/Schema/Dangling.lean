/-
  The reference that publication refuses. A reference inside a definition has an address, which
  counts the parts of the values on the way to the object that makes it (`Json.RefersAt`). In the
  order of addresses an object comes before what is inside of it, and one part before the next.

  The search for a reference to a name that is not registered goes through the definitions in
  order and through each of them depth first: in a value it looks at the value's own reference,
  and then at the parts until one of them has such a reference (`Registry.danglingName?_eq`). So
  it finds the one with the first address in the registry, if there is any
  (`Registry.findsFirst_dangling?`), and this is the one that publication reports
  (`Registry.publish_outcome`).
-/
import ChartDoc.Proofs.Foremost
import ChartDoc.Proofs.Schema.References

namespace ChartDoc

namespace Json

variable {v : Json} {target target' : String} {address : Address}

/-- `RefersAt v address target`: the value `v` is an object with the string `target` under the key
    of references, if the address is empty; otherwise the part with the first index refers to
    `target` at the remaining address. -/
inductive RefersAt : Json → Address → String → Prop where
  | own {v : Json} {target : String} (h : v.get? referenceKey = some (.string target)) :
    RefersAt v [] target
  | part {v w : Json} {i : Nat} {address : Address} {target : String}
    (given : v.parts[i]? = some w) (h : RefersAt w address target) :
    RefersAt v (i :: address) target

/-- There is one reference at an address. -/
theorem RefersAt.eq (h : v.RefersAt address target) (h' : v.RefersAt address target') :
    target = target' := by
  induction h with
  | own h =>
    cases h' with
    | own h' =>
      rw [h] at h'
      cases h'
      rfl
  | part given _ ih =>
    cases h' with
    | part given' h' =>
      rw [given] at given'
      cases given'
      exact ih h'

/-- What a value refers to, it refers to at some address. -/
theorem refers_iff_exists_refersAt : v.Refers target ↔ ∃ address, v.RefersAt address target := by
  constructor
  · intro h
    induction h with
    | own h => exact ⟨[], .own h⟩
    | part part _ ih =>
      obtain ⟨address, h⟩ := ih
      obtain ⟨i, hi⟩ := List.getElem?_of_mem (isPart_iff.mp part)
      exact ⟨i :: address, .part hi h⟩
  · rintro ⟨address, h⟩
    induction h with
    | own h => exact .own h
    | part given _ ih => exact .part (isPart_iff.mpr (List.mem_of_getElem? given)) ih

/-- The references of a value are its own one and those of its parts. -/
theorem references_eq (v : Json) :
    v.references = ((v.get? referenceKey).bind string?).toList ++ v.parts.flatMap references := by
  cases v with
  | array items =>
    rw [references, itemReferences_eq]
    rfl
  | object members =>
    rw [references, memberReferences_eq, parts, List.flatMap_map]
    rfl
  | _ => rfl

end Json

namespace Registry

variable {r : Registry} {v : Json}

/-- `Dangles r v address name`: the reference at an address inside a value is to a name that is
    not registered. -/
def Dangles (r : Registry) (v : Json) (address : Address) (name : String) : Prop :=
  ∃ target, v.RefersAt address target ∧ r.contains (referenceName target) = false ∧
    referenceName target = name

/-- `DanglesAt r address (definition, name)`: the reference at an address inside a registry is made
    by a definition, to a name that is not registered. The first index is that of the definition
    in the order of registration, and the others lead to the reference inside of it. -/
inductive DanglesAt (r : Registry) : Address → String × String → Prop where
  | inDefinition {i : Nat} {definition name : String} {d : Json} {address : Address}
    (given : r.definitions[i]? = some (definition, d)) (dangles : r.Dangles d address name) :
    DanglesAt r (i :: address) (definition, name)

theorem DanglesAt.eq (address : Address) (found found' : String × String)
    (h : r.DanglesAt address found) (h' : r.DanglesAt address found') : found = found' := by
  obtain ⟨given, target, hrefers, -, rfl⟩ := h
  obtain ⟨given', target', hrefers', -, rfl⟩ := h'
  rw [given] at given'
  cases given'
  rw [hrefers.eq hrefers']

/-- The name in a reference, if it is not registered. -/
def unregistered? (r : Registry) (target : String) : Option String :=
  if r.contains (referenceName target) then none else some (referenceName target)

theorem unregistered?_eq_some_iff {target name : String} :
    r.unregistered? target = some name ↔
      r.contains (referenceName target) = false ∧ referenceName target = name := by
  unfold unregistered?
  cases r.contains (referenceName target) <;> simp

/-- The search in a value: its own reference comes first, and then its parts, until one of them
    has a reference that is looked for. -/
theorem danglingName?_eq (r : Registry) (v : Json) :
    r.danglingName? v = (((v.get? referenceKey).bind Json.string?).bind r.unregistered?).or
      (v.parts.findSome? r.danglingName?) := by
  unfold danglingName?
  rw [v.references_eq, List.map_append, List.find?_append, List.map_flatMap, List.find?_flatMap]
  congr 1
  cases (v.get? referenceKey).bind Json.string? with
  | none => rfl
  | some target =>
    rw [Option.toList_some, List.map_singleton, List.find?_singleton, Option.bind_some,
      unregistered?]
    cases r.contains (referenceName target) <;> rfl

/-- A reference at the empty address is the value's own, and the others are those of the parts. -/
theorem dangles_iff {address : Address} {name : String} :
    (address = [] ∧ ((v.get? referenceKey).bind Json.string?).bind r.unregistered? = some name) ∨
      InItems r.Dangles v.parts address name ↔ r.Dangles v address name := by
  constructor
  · rintro (⟨rfl, hown⟩ | ⟨given, target, hrefers, hname⟩)
    · obtain ⟨target, htarget, hname⟩ := Option.bind_eq_some_iff.mp hown
      obtain ⟨w, hget, hw⟩ := Option.bind_eq_some_iff.mp htarget
      rw [Json.string?_eq_some_iff] at hw
      exact ⟨target, .own (hw ▸ hget), unregistered?_eq_some_iff.mp hname⟩
    · exact ⟨target, .part given hrefers, hname⟩
  · rintro ⟨target, hrefers, hname⟩
    cases hrefers with
    | own hget =>
      refine .inl ⟨rfl, ?_⟩
      rw [hget]
      exact unregistered?_eq_some_iff.mpr hname
    | part given hrefers => exact .inr (.item given ⟨target, hrefers, hname⟩)

theorem findsFirst_danglingName? (r : Registry) (v : Json) :
    FindsFirst (r.Dangles v) (r.danglingName? v) := by
  induction v using Json.part_induction with
  | step v ih =>
    rw [danglingName?_eq]
    have inside : FindsFirst (InItems r.Dangles v.parts) (v.parts.findSome? r.danglingName?) :=
      .findSome? fun w hw => ih w (Json.isPart_iff.mpr hw)
    exact inside.or.congr fun address name => dangles_iff

theorem findsFirst_dangling? (r : Registry) : FindsFirst r.DanglesAt r.dangling? := by
  have hdefinitions := FindsFirst.findSome? fun entry (_ : entry ∈ r.definitions) =>
    (r.findsFirst_danglingName? entry.2).map fun name => (entry.1, name)
  refine hdefinitions.congr fun address found => ⟨?_, ?_⟩
  · rintro ⟨given, name, hdangles, rfl⟩
    exact .inDefinition given hdangles
  · rintro ⟨given, hdangles⟩
    exact .item given ⟨_, hdangles, rfl⟩

theorem allClosed_iff :
    r.AllClosed ↔ ∀ name d target, r.get? name = some d → d.Refers target →
      r.contains (referenceName target) = true := by
  simp only [AllClosed, Closed, Json.mem_references_iff]
  exact ⟨fun h name d target hd => h name d hd target, fun h name d hd target => h name d target hd⟩

/-- What publication answers. An unregistered root is refused before everything else. Otherwise
    the document is published exactly when every reference in every definition names a definition,
    and it holds the definitions as they are, in order, and refers to the root. When there is a
    reference that does not, the one with the first address in the registry is reported. -/
theorem publish_outcome (r : Registry) (header : Header) :
    (∀ root, r.publish header = .error (.unknownRoot root) ↔
      r.contains header.root = false ∧ root = header.root) ∧
    (∀ doc, r.publish header = .ok doc ↔
      r.contains header.root = true ∧
        (∀ name d target, r.get? name = some d → d.Refers target →
          r.contains (referenceName target) = true) ∧
        doc = r.schemaDocument header) ∧
    (r.schemaDocument header).get? "$defs" = some (.object r.definitions) ∧
    (r.schemaDocument header).get? referenceKey = some (.string (referenceMark ++ header.root)) ∧
    (∀ definition name, r.publish header = .error (.danglingReference definition name) ↔
      r.contains header.root = true ∧ Foremost r.DanglesAt (definition, name)) := by
  refine ⟨fun root => ?_, fun doc => ?_, rfl, rfl, fun definition name => ?_⟩
  · unfold publish
    cases r.contains header.root with
    | false => simp [eq_comm]
    | true => cases r.dangling? <;> simp
  · rw [publish_eq_ok_iff, allClosed_iff]
  · rw [← (r.findsFirst_dangling?).eq_some_iff DanglesAt.eq]
    unfold publish
    cases r.contains header.root with
    | false => simp
    | true => cases r.dangling? <;> simp [Prod.ext_iff]

-- An object's own reference comes first, wherever it stands among the members.
example :
    (empty.registerAll
      [("Leaf", .object []),
       ("Tree", .object
         [("items", .object [(referenceKey, .string "#/$defs/Twig")]),
          (referenceKey, .string "Trunk")])]).dangling? = some ("Tree", "Trunk") := by
  decide +kernel

end Registry

end ChartDoc
