/-
  Inlining of references. A schema stands inside another under `items` or as a property; a
  `Place` leads to it and holds everything beside it. Where a reference stands in such a place
  of a definition, the definition that it names can stand instead and the walk finds the same,
  provided that the named definition is not a reference itself. Both registries ask for the same
  up to the inlining (`simulates_inlined`), and that is all the walk looks at.

  Without the proviso this fails, and violations are missed. The walk follows one reference and
  takes what it names as it is. A definition that is only a reference names no type: behind
  another reference it asks for nothing, but at the root, or in the place of that reference, it
  is followed (`check_alias`).
-/
import ChartDoc.Proofs.Walk.Simulation
import ChartDoc.Schema.Shape

namespace ChartDoc

namespace Schema

/-- One step into a schema, with everything that stands beside the schema inside. -/
inductive Frame where
  | items (before after : Entries Json)
  | property (before after earlier later : Entries Json) (name : String)

namespace Frame

/-- The key under which the frame leads inside. -/
def key : Frame → String
  | items _ _ => "items"
  | property _ _ _ _ _ => "properties"

/-- What stands under the key when a schema is put into the frame. -/
def content : Frame → Json → Json
  | items _ _, s => s
  | property _ _ earlier later name, s => .object (earlier ++ (name, s) :: later)

/-- The members in front of the one under the key. -/
def before : Frame → Entries Json
  | items before _ => before
  | property before _ _ _ _ => before

/-- The members behind the one under the key. -/
def after : Frame → Entries Json
  | items _ after => after
  | property _ after _ _ _ => after

/-- The schema with another one put into the frame. -/
def fill (f : Frame) (s : Json) : Json :=
  .object (f.before ++ (f.key, f.content s) :: f.after)

theorem get?_fill (f : Frame) (s : Json) (key : String) :
    (f.fill s).get? key = (List.lookup key f.before).or
      (if key = f.key then some (f.content s) else List.lookup key f.after) := by
  show List.lookup key (f.before ++ (f.key, f.content s) :: f.after) = _
  rw [List.lookup_append, Entries.lookup_cons]

/-- Under other keys it does not matter what is put into the frame. -/
theorem get?_fill_of_ne {f : Frame} {key : String} (h : key ≠ f.key) (s s' : Json) :
    (f.fill s).get? key = (f.fill s').get? key := by
  rw [get?_fill, get?_fill, if_neg h, if_neg h]

/-- Under the key of the frame stands what is put into it, unless an earlier member hides it. -/
theorem get?_fill_key (f : Frame) {key : String} (h : key = f.key) :
    (∀ s, (f.fill s).get? key = some (f.content s)) ∨ ∃ w, ∀ s, (f.fill s).get? key = some w := by
  cases hbefore : List.lookup key f.before with
  | none =>
    refine .inl fun s => ?_
    rw [get?_fill, hbefore, if_pos h, Option.none_or]
  | some w =>
    refine .inr ⟨w, fun s => ?_⟩
    rw [get?_fill, hbefore, Option.some_or]

theorem referenceKey_ne_key (f : Frame) : referenceKey ≠ f.key := by
  have hitems : referenceKey ≠ "items" := by decide
  have hproperties : referenceKey ≠ "properties" := by decide
  cases f with
  | items before after => exact hitems
  | property before after earlier later name => exact hproperties

end Frame

/-- A place inside a schema: the frames that lead to it, outermost first. -/
abbrev Place := List Frame

/-- The schema with another one put into the place. -/
def Place.fill (place : Place) (s : Json) : Json :=
  place.foldr Frame.fill s

/-- `Inlined a d s s'`: the two schemas are the same, or there is one place where the first has
    `a` and the second has `d`. -/
inductive Inlined (a d : Json) : Json → Json → Prop where
  | same (s : Json) : Inlined a d s s
  | place (place : Place) : Inlined a d (place.fill a) (place.fill d)

/-! ## What the two schemas ask for -/

/-- What a schema asks for is known from its keywords, those with schemas inside up to a
    relation. -/
theorem alike_of_get? {R : Json → Json → Prop} (hR : ∀ s, R s s) {s s' : Json}
    (same : ∀ key, key ≠ "items" → key ≠ "properties" → s.get? key = s'.get? key)
    (items : Option.Rel R (s.get? "items") (s'.get? "items"))
    (properties : List.Forall₂ (fun p q => p.1 = q.1 ∧ R p.2 q.2)
      (((s.get? "properties").bind Json.members?).getD [])
      (((s'.get? "properties").bind Json.members?).getD [])) :
    Demand.Alike R (Demand.ofSchema s) (Demand.ofSchema s') := by
  unfold Demand.ofSchema Demand.strings?
  rw [same "type" (by decide) (by decide), same "required" (by decide) (by decide),
    same "minItems" (by decide) (by decide), same "enum" (by decide) (by decide),
    same "minimum" (by decide) (by decide), same "maximum" (by decide) (by decide)]
  split
  · exact Demand.Alike.refl hR .anything
  · exact ⟨properties, rfl⟩
  · exact ⟨rfl, items⟩
  · exact Demand.Alike.refl hR (.string _)
  · exact Demand.Alike.refl hR (.number _ _)
  · exact Demand.Alike.refl hR .boolean
  · exact Demand.Alike.refl hR (.unknown _)

variable {a d : Json}

theorem option_rel_same (s : Option Json) : Option.Rel (Inlined a d) s s := by
  cases s with
  | none => exact .none
  | some s => exact .some (.same s)

theorem forall₂_same (properties : Entries Json) :
    List.Forall₂ (fun p q => p.1 = q.1 ∧ Inlined a d p.2 q.2) properties properties :=
  List.forall₂_same.mpr fun p _ => ⟨rfl, .same p.2⟩

theorem forall₂_middle (earlier later : Entries Json) (name : String) {s s' : Json}
    (h : Inlined a d s s') :
    List.Forall₂ (fun p q => p.1 = q.1 ∧ Inlined a d p.2 q.2) (earlier ++ (name, s) :: later)
      (earlier ++ (name, s') :: later) :=
  List.rel_append (forall₂_same earlier) (.cons ⟨rfl, h⟩ (forall₂_same later))

/-- The schemas of the items of two schemas that differ in one frame. -/
theorem items_fill (f : Frame) {s s' : Json} (h : Inlined a d s s') :
    Option.Rel (Inlined a d) ((f.fill s).get? "items") ((f.fill s').get? "items") := by
  cases f with
  | items before after =>
    have hkey : "items" = (Frame.items before after).key := rfl
    rcases Frame.get?_fill_key _ hkey with hfill | ⟨w, hfill⟩
    · rw [hfill s, hfill s']
      exact .some h
    · rw [hfill s, hfill s']
      exact option_rel_same _
  | property before after earlier later name =>
    have hne : "items" ≠ "properties" := by decide
    rw [Frame.get?_fill_of_ne hne s s']
    exact option_rel_same _

/-- The properties of two schemas that differ in one frame. -/
theorem properties_fill (f : Frame) {s s' : Json} (h : Inlined a d s s') :
    List.Forall₂ (fun p q => p.1 = q.1 ∧ Inlined a d p.2 q.2)
      ((((f.fill s).get? "properties").bind Json.members?).getD [])
      ((((f.fill s').get? "properties").bind Json.members?).getD []) := by
  cases f with
  | items before after =>
    have hne : "properties" ≠ "items" := by decide
    rw [Frame.get?_fill_of_ne hne s s']
    exact forall₂_same _
  | property before after earlier later name =>
    have hkey : "properties" = (Frame.property before after earlier later name).key := rfl
    rcases Frame.get?_fill_key _ hkey with hfill | ⟨w, hfill⟩
    · rw [hfill s, hfill s']
      exact forall₂_middle earlier later name h
    · rw [hfill s, hfill s']
      exact forall₂_same _

/-- Schemas that differ in one frame only ask for the same, up to what stands in the frame. -/
theorem alike_fill (f : Frame) {s s' : Json} (h : Inlined a d s s') :
    Demand.Alike (Inlined a d) (Demand.ofSchema (f.fill s)) (Demand.ofSchema (f.fill s')) := by
  refine alike_of_get? .same (fun key hitems hproperties => ?_) (items_fill f h)
    (properties_fill f h)
  have hkey : key ≠ f.key := by
    cases f with
    | items before after => exact hitems
    | property before after earlier later name => exact hproperties
  exact Frame.get?_fill_of_ne hkey s s'

end Schema

open Schema

namespace Registry

variable {r r' : Registry} {a d : Json}

/-- `Framed a d x y`: two definitions, or two missing ones, are the same, or they differ in one
    frame. -/
def Framed (a d : Json) (x y : Option Json) : Prop :=
  x = y ∨ ∃ f s s', x = some (Frame.fill f s) ∧ y = some (Frame.fill f s') ∧ Inlined a d s s'

theorem Framed.alike {x y : Option Json} (h : Framed a d x y) :
    Option.Rel (Demand.Alike (Inlined a d)) (x.map Demand.ofSchema) (y.map Demand.ofSchema) := by
  rcases h with rfl | ⟨f, s, s', rfl, rfl, h⟩
  · cases x with
    | none => exact .none
    | some s => exact .some (Demand.Alike.refl .same _)
  · exact .some (alike_fill f h)

theorem Framed.inlined {x y : Option Json} (h : Framed a d x y) :
    Option.Rel (Inlined a d) x y := by
  rcases h with rfl | ⟨f, s, s', rfl, rfl, h⟩
  · exact option_rel_same x
  · cases h with
    | same s => exact .some (.same _)
    | place place => exact .some (.place (f :: place))

theorem framed_fill {place : Place} (inside : place ≠ []) :
    Framed a d (some (place.fill a)) (some (place.fill d)) := by
  cases place with
  | nil => exact absurd rfl inside
  | cons f rest =>
    exact .inr ⟨f, Place.fill rest a, Place.fill rest d, rfl, rfl, .place rest⟩

theorem resolve?_of_reference {s : Json} {target : String}
    (h : (s.get? referenceKey).bind Json.string? = some target) :
    r.resolve? s = r.get? (referenceName target) := by
  rw [resolve?, h]

theorem resolve?_of_plain {s : Json} (h : (s.get? referenceKey).bind Json.string? = none) :
    r.resolve? s = some s := by
  rw [resolve?, h]

/-- Schemas with the same reference, if any, lead to definitions that are the same or differ in
    one frame, when the schemas themselves do. -/
theorem framed_resolve? (hdefs : ∀ name, Framed a d (r.get? name) (r'.get? name)) {s s' : Json}
    (same : s.get? referenceKey = s'.get? referenceKey) (h : Framed a d (some s) (some s')) :
    Framed a d (r.resolve? s) (r'.resolve? s') := by
  cases htarget : (s.get? referenceKey).bind Json.string? with
  | none =>
    have htarget' : (s'.get? referenceKey).bind Json.string? = none := same ▸ htarget
    rw [resolve?_of_plain htarget, resolve?_of_plain htarget']
    exact h
  | some target =>
    have htarget' : (s'.get? referenceKey).bind Json.string? = some target := same ▸ htarget
    rw [resolve?_of_reference htarget, resolve?_of_reference htarget']
    exact hdefs _

/-- Inlining what a schema is resolved to, where that is no reference, keeps what is asked for. -/
theorem simulates_inlined (hdefs : ∀ name, Framed a d (r.get? name) (r'.get? name))
    (ha : r.resolve? a = some d) (plain : (d.get? referenceKey).bind Json.string? = none) :
    Simulates r r' (Inlined a d) := by
  intro s s' h
  cases h with
  | same s => exact (framed_resolve? hdefs rfl (.inl rfl)).alike
  | place place =>
    cases place with
    | nil =>
      have hd : r'.resolve? d = some d := resolve?_of_plain plain
      show Option.Rel _ (r.demand? a) (r'.demand? d)
      rw [demand?, demand?, ha, hd]
      exact .some (Demand.Alike.refl .same _)
    | cons f rest =>
      have hsame : (Place.fill (f :: rest) a).get? referenceKey =
          (Place.fill (f :: rest) d).get? referenceKey :=
        Frame.get?_fill_of_ne f.referenceKey_ne_key _ _
      exact (framed_resolve? hdefs hsame (framed_fill (List.cons_ne_nil f rest))).alike

/-- Where a definition refers to another inside, under items or as a property, the definition
    that is referred to can stand in place of the reference. Unless that one is a reference
    itself, the check finds the same in every value and under every name. -/
theorem check_inline (r : Registry) (name target : String) (place : Place) (d : Json)
    (inside : place ≠ [])
    (refers : r.get? name = some (place.fill (Shape.referenceJson target)))
    (registered : r.get? target = some d)
    (plain : (d.get? referenceKey).bind Json.string? = none) (root : String) (v : Json) :
    (r.register name (place.fill d)).2.check root v = r.check root v := by
  have hdefs (other : String) : Framed (Shape.referenceJson target) d (r.get? other)
      ((r.register name (place.fill d)).2.get? other) := by
    rw [get?_register]
    split
    · rename_i hname
      rw [hname, refers]
      exact framed_fill inside
    · exact .inl rfl
  have hresolve : r.resolve? (Shape.referenceJson target) = some d := by
    have htarget : ((Shape.referenceJson target).get? referenceKey).bind Json.string? =
        some (referenceMark ++ target) := by
      simp [Shape.referenceJson, Json.get?, Json.members?, Json.string?]
    rw [resolve?_of_reference htarget, referenceName_mark, registered]
  have hsim := simulates_inlined hdefs hresolve plain
  exact (check_eq_of_simulates hsim (hdefs root).inlined v).symm

/-- Trees: a label, and trees again. -/
def treeShape : Shape :=
  .object "A labelled tree." [("label", .text), ("children", .list (.reference "Tree") none)]
    ["label"]

def treeRegistry : Registry :=
  empty.registerAll (Shape.propertyJsons [("Tree", treeShape)])

/-- The place in the definition of trees where it refers to itself. -/
def treePlace : Place :=
  [.property [("type", .string "object"), ("description", .string "A labelled tree.")]
    [("required", .ofStrings ["label"]), ("additionalProperties", .bool false)]
    [("label", Shape.text.json)] [] "children",
   .items [("type", .string "array")] []]

/-- A tree whose child has no label and a child with a label that is no text. -/
def brokenTree : Json :=
  .object [("label", .string "root"),
    ("children", .array [.object [("children", .array [.object [("label", .null)]])]])]

/-- The definition of trees put into itself in place of its reference. -/
theorem check_inline_tree :
    treePlace ≠ [] ∧
      treeRegistry.get? "Tree" = some (treePlace.fill (Shape.referenceJson "Tree")) ∧
      treeRegistry.get? "Tree" = some treeShape.json ∧
      (treeShape.json.get? referenceKey).bind Json.string? = none ∧
      (treeRegistry.register "Tree" (treePlace.fill treeShape.json)).2.check "Tree" brokenTree =
        treeRegistry.check "Tree" brokenTree ∧
      (treeRegistry.check "Tree" brokenTree).map (fun x => x.issue.path) =
        ["children[0].label", "children[0].children[0].label"] :=
  ⟨by decide, rfl, rfl, rfl,
    check_inline treeRegistry "Tree" "Tree" treePlace treeShape.json (by decide) rfl rfl rfl "Tree"
      brokenTree,
    by decide +kernel⟩

/-- A name for another definition, and a list of what the name stands for. -/
def aliasRegistry : Registry :=
  empty.registerAll (Shape.propertyJsons
    [("Word", .text), ("Alias", .reference "Word"), ("Words", .list (.reference "Alias") none)])

/-- The place of the schema of items in a definition of arrays. -/
def itemsPlace : Place :=
  [.items [("type", .string "array")] []]

/-- A definition that is a reference itself is not followed where it is referred to, so items
    that are no texts are missed. They are found when the definition is put in place of the
    reference, and a value is checked against the definition itself. -/
theorem check_alias :
    aliasRegistry.get? "Words" = some (itemsPlace.fill (Shape.referenceJson "Alias")) ∧
      aliasRegistry.get? "Alias" = some (Shape.referenceJson "Word") ∧
      (aliasRegistry.check "Words" (.array [.bool true])).map Violation.issue = [] ∧
      ((aliasRegistry.register "Words" (itemsPlace.fill (Shape.referenceJson "Word"))).2.check
          "Words" (.array [.bool true])).map Violation.issue =
        [⟨"$[0]", "invalid type: boolean, expected string"⟩] ∧
      (aliasRegistry.check "Alias" (.bool true)).map Violation.issue =
        [⟨"$", "invalid type: boolean, expected string"⟩] :=
  ⟨rfl, rfl, by decide +kernel, by decide +kernel, by decide +kernel⟩

end Registry

end ChartDoc
