/-
  What the walk reads of a registry. Under a root it can come to the definition of the root, to
  those that this one refers to, and so on along the references, wherever in the definitions they
  stand (`Reachable`). The references may run in circles; the walk follows them only as far as
  the value goes.

  Two registries that have the same definitions, or none, under the reachable names are alike to
  the walk: the schemas whose references are all reachable ask for the same in both
  (`simulates_reachable`). So definitions that are not reachable do not matter, and neither does
  the order of registration (`check_reads_reachable`).
-/
import ChartDoc.Proofs.Schema.References
import ChartDoc.Proofs.Walk.Simulation

namespace ChartDoc

namespace Registry

variable {r r' : Registry} {root : String}

/-- The names that can be reached from a root: the root itself, and the names in all references
    that the definition of a reachable name makes. -/
inductive Reachable (r : Registry) (root : String) : String → Prop where
  | root : Reachable r root root
  | step {name target : String} {d : Json} (reached : Reachable r root name)
    (registered : r.get? name = some d) (refers : d.Refers target) :
    Reachable r root (referenceName target)

/-- The reachable names are the least set with the root that holds, with each registered name, the
    names in the references of its definition. -/
theorem Reachable.of_closed {S : String → Prop} (hroot : S root)
    (closed : ∀ name d target, S name → r.get? name = some d → d.Refers target →
      S (referenceName target)) {name : String} (reached : r.Reachable root name) : S name := by
  induction reached with
  | root => exact hroot
  | step _ registered refers ih => exact closed _ _ _ ih registered refers

/-- All references in a schema name what can be reached from the root. -/
def Within (r : Registry) (root : String) (s : Json) : Prop :=
  ∀ target ∈ s.references, r.Reachable root (referenceName target)

/-- The definitions of reachable names refer to reachable names only. -/
theorem Reachable.within {name : String} {d : Json} (reached : r.Reachable root name)
    (registered : r.get? name = some d) : r.Within root d :=
  fun _ htarget => .step reached registered (Json.mem_references_iff.mp htarget)

/-- A schema within reach asks for the same, and for schemas within reach, in every registry with
    the same definitions of reachable names. -/
theorem Within.rel_demand? (same : ∀ name, r.Reachable root name → r'.get? name = r.get? name)
    {s : Json} (h : r.Within root s) :
    Option.Rel (Demand.Alike fun p q => p = q ∧ r.Within root p) (r.demand? s) (r'.demand? s) := by
  have halike (definition : Json) (hd : r.Within root definition) :
      Demand.Alike (fun p q => p = q ∧ r.Within root p) (Demand.ofSchema definition)
        (Demand.ofSchema definition) :=
    .of_parts fun p hp =>
      ⟨rfl, fun target htarget => hd target (Demand.references_subset_of_mem_parts hp htarget)⟩
  unfold demand? resolve?
  cases htarget : (s.get? referenceKey).bind Json.string? with
  | none => exact .some (halike s h)
  | some target =>
    have hreached := h target (Json.mem_references_of_get? htarget)
    simp only
    rw [same _ hreached]
    cases hdefinition : r.get? (referenceName target) with
    | none => exact .none
    | some definition => exact .some (halike definition (hreached.within hdefinition))

theorem simulates_reachable (same : ∀ name, r.Reachable root name → r'.get? name = r.get? name) :
    Simulates r r' fun s s' => s = s' ∧ r.Within root s := by
  rintro s _ ⟨rfl, h⟩
  exact h.rel_demand? same

/-- The check under a root reads nothing of a registry but the definitions of the names that can
    be reached from the root. It finds the same in another registry with the same definitions, or
    none, under these names. It does not see a registration under any other name, whether that is
    new or replaces a definition, and it does not see the order of the definitions. -/
theorem check_reads_reachable (r : Registry) (root : String) (v : Json) :
    (∀ r' : Registry, (∀ name, r.Reachable root name → r'.get? name = r.get? name) →
      r'.check root v = r.check root v) ∧
    (∀ name definition, ¬r.Reachable root name →
      (r.register name definition).2.check root v = r.check root v) ∧
    ∀ r' : Registry, r'.definitions.Perm r.definitions → r'.check root v = r.check root v := by
  have hframe : ∀ r' : Registry, (∀ name, r.Reachable root name → r'.get? name = r.get? name) →
      r'.check root v = r.check root v := by
    intro r' same
    refine (check_eq_of_simulates (simulates_reachable same) ?_ v).symm
    rw [same root .root]
    cases hroot : r.get? root with
    | none => exact .none
    | some definition => exact .some ⟨rfl, Reachable.root.within hroot⟩
  refine ⟨hframe, ?_, ?_⟩
  · intro name definition hname
    refine hframe _ fun other hother => ?_
    have hne : other ≠ name := fun h => hname (h ▸ hother)
    rw [get?, register_snd_definitions]
    exact Entries.lookup_insert_of_ne hne definition r.definitions
  · intro r' hperm
    exact hframe r' fun name _ => Entries.lookup_perm r'.distinct hperm name

/-- Trees have branches and branches have a tree; stones are beside them. -/
def gardenShapes : Entries Json :=
  [("Stone", Shape.text.json), ("Tree", (Shape.list (.reference "Branch") none).json),
   ("Branch", (Shape.object "" [("tree", .reference "Tree")] []).json)]

/-- A registry with the shapes of a garden. -/
def garden : Registry :=
  empty.registerAll gardenShapes

theorem reachable_garden {name : String} (reached : garden.Reachable "Tree" name) :
    name = "Tree" ∨ name = "Branch" := by
  refine reached.of_closed (S := fun name => name = "Tree" ∨ name = "Branch") (.inl rfl) ?_
  rintro _ d target (rfl | rfl) registered refers
  · cases registered
    have htarget : target ∈ ["#/$defs/Branch"] := Json.mem_references_iff.mpr refers
    rw [List.mem_singleton.mp htarget]
    exact .inr (by decide +kernel)
  · cases registered
    have htarget : target ∈ ["#/$defs/Tree"] := Json.mem_references_iff.mpr refers
    rw [List.mem_singleton.mp htarget]
    exact .inl (by decide +kernel)

/-- A tree with a branch that holds no tree. -/
def deadTree : Json :=
  .array [.object [("tree", .null)]]

theorem check_reads_reachable_garden :
    (∀ name, garden.Reachable "Tree" name →
        (empty.registerAll gardenShapes.tail).get? name = garden.get? name) ∧
      ¬garden.Reachable "Tree" "Stone" ∧
      (empty.registerAll gardenShapes.reverse).definitions.Perm garden.definitions ∧
      (empty.registerAll gardenShapes.tail).check "Tree" deadTree = garden.check "Tree" deadTree ∧
      (garden.register "Stone" .null).2.check "Tree" deadTree = garden.check "Tree" deadTree ∧
      (empty.registerAll gardenShapes.reverse).check "Tree" deadTree =
        garden.check "Tree" deadTree ∧
      (garden.check "Tree" deadTree).map Violation.issue =
        [⟨"$[0].tree", "invalid type: null, expected array"⟩] := by
  obtain ⟨hother, hregister, horder⟩ := check_reads_reachable garden "Tree" deadTree
  have same : ∀ name, garden.Reachable "Tree" name →
      (empty.registerAll gardenShapes.tail).get? name = garden.get? name := by
    intro name reached
    rcases reachable_garden reached with rfl | rfl <;> rfl
  have hstone : ¬garden.Reachable "Tree" "Stone" := by
    intro reached
    rcases reachable_garden reached with h | h <;> exact absurd h (by decide)
  have hperm : (empty.registerAll gardenShapes.reverse).definitions.Perm garden.definitions :=
    gardenShapes.reverse_perm
  exact ⟨same, hstone, hperm, hother _ same, hregister _ _ hstone, horder _ hperm,
    by decide +kernel⟩

end Registry

end ChartDoc
