/-
  The two halves of the axes. A list of axes interleaves two lists: those at the bottom or the top,
  and those at the left or the right, each in the order in which they stand (`Interleaves`). The
  relation mentions no orientation and no filter. Every list interleaves two lists and no others,
  and the halves hold exactly these.

  A half is in its shortest form (`OneOrMany.Shortest`): nothing for no axis, the bare axis for a
  single one, a list for two or more. The form depends on the number of axes only. So when more
  axes come behind, the form of a half can change, but the axes in it stay in front
  (`Axes.of_interleaves`).
-/
import ChartDoc.Renderer.Axis

namespace ChartDoc

/-! ## Sides and orientations -/

theorem AxisPosition.orientation_eq_horizontal {side : AxisPosition}
    (h : side = .bottom ∨ side = .top) : side.orientation = .horizontal := by
  rcases h with rfl | rfl <;> rfl

theorem AxisPosition.orientation_eq_vertical {side : AxisPosition}
    (h : side = .left ∨ side = .right) : side.orientation = .vertical := by
  rcases h with rfl | rfl <;> rfl

theorem AxisPosition.sides (side : AxisPosition) :
    (side = .bottom ∨ side = .top) ∨ (side = .left ∨ side = .right) := by
  cases side <;> decide

namespace Renderer

/-! ## Interleaved axes -/

/-- `Interleaves axes xs ys`: of the axes, `xs` are those at the bottom or the top and `ys` those
    at the left or the right, in the same order. -/
inductive Interleaves :
    List ChartDoc.Axis → List ChartDoc.Axis → List ChartDoc.Axis → Prop where
  | nil : Interleaves [] [] []
  | horizontal {a : ChartDoc.Axis} {axes xs ys : List ChartDoc.Axis}
    (side : a.position = .bottom ∨ a.position = .top) (rest : Interleaves axes xs ys) :
    Interleaves (a :: axes) (a :: xs) ys
  | vertical {a : ChartDoc.Axis} {axes xs ys : List ChartDoc.Axis}
    (side : a.position = .left ∨ a.position = .right) (rest : Interleaves axes xs ys) :
    Interleaves (a :: axes) xs (a :: ys)

theorem exists_interleaves (axes : List ChartDoc.Axis) : ∃ xs ys, Interleaves axes xs ys := by
  induction axes with
  | nil => exact ⟨[], [], .nil⟩
  | cons a axes ih =>
    obtain ⟨xs, ys, rest⟩ := ih
    rcases a.position.sides with side | side
    · exact ⟨a :: xs, ys, .horizontal side rest⟩
    · exact ⟨xs, a :: ys, .vertical side rest⟩

namespace Interleaves

variable {axes axes' xs xs' ys ys' : List ChartDoc.Axis}

theorem length_eq (h : Interleaves axes xs ys) : xs.length + ys.length = axes.length := by
  induction h with
  | nil => rfl
  | horizontal side rest ih =>
    rw [List.length_cons, List.length_cons, ← ih]
    omega
  | vertical side rest ih =>
    rw [List.length_cons, List.length_cons, ← ih]
    omega

theorem append (h : Interleaves axes xs ys) (h' : Interleaves axes' xs' ys') :
    Interleaves (axes ++ axes') (xs ++ xs') (ys ++ ys') := by
  induction h with
  | nil => exact h'
  | horizontal side rest ih => exact .horizontal side ih
  | vertical side rest ih => exact .vertical side ih

/-- The two lists are what is left of the axes when they are filtered by orientation. -/
theorem filter_eq (h : Interleaves axes xs ys) :
    axes.filter (ChartDoc.Axis.isOriented .horizontal) = xs ∧
      axes.filter (ChartDoc.Axis.isOriented .vertical) = ys := by
  induction h with
  | nil => exact ⟨rfl, rfl⟩
  | horizontal side rest ih =>
    obtain ⟨hxs, hys⟩ := ih
    have horizontal := AxisPosition.orientation_eq_horizontal side
    rw [List.filter_cons_of_pos (by simp [ChartDoc.Axis.isOriented, horizontal]),
      List.filter_cons_of_neg (by simp [ChartDoc.Axis.isOriented, horizontal]), hxs, hys]
    exact ⟨rfl, rfl⟩
  | vertical side rest ih =>
    obtain ⟨hxs, hys⟩ := ih
    have vertical := AxisPosition.orientation_eq_vertical side
    rw [List.filter_cons_of_neg (by simp [ChartDoc.Axis.isOriented, vertical]),
      List.filter_cons_of_pos (by simp [ChartDoc.Axis.isOriented, vertical]), hxs, hys]
    exact ⟨rfl, rfl⟩

/-- The halves depend on the two lists only, not on how they are interleaved. -/
theorem of_eq (h : Interleaves axes xs ys) :
    Axes.of axes = ⟨OneOrMany.ofList? (xs.map Axis.of), OneOrMany.ofList? (ys.map Axis.of)⟩ := by
  obtain ⟨hxs, hys⟩ := h.filter_eq
  rw [Axes.of, Axes.half, Axes.half, hxs, hys]

end Interleaves

/-! ## Short forms -/

/-- `Shortest values v`: the values in their shortest form are `v`. -/
inductive OneOrMany.Shortest {α : Type} : List α → Option (OneOrMany α) → Prop where
  | none : Shortest [] none
  | one (a : α) : Shortest [a] (some (.one a))
  | many (a b : α) (rest : List α) : Shortest (a :: b :: rest) (some (.many (a :: b :: rest)))

theorem OneOrMany.shortest_ofList? {α : Type} (values : List α) :
    Shortest values (ofList? values) := by
  match values with
  | [] => exact .none
  | [a] => exact .one a
  | a :: b :: rest => exact .many a b rest

/-- In JSON a single axis is an object, and an array has at least two axes. -/
theorem OneOrMany.Shortest.kind_json {axes : List Axis} {v : OneOrMany Axis}
    (h : Shortest axes (some v)) :
    (v.length = 1 ∧ (v.json Axis.json).kind = .object) ∨
      (2 ≤ v.length ∧ (v.json Axis.json).kind = .array) := by
  cases h with
  | one a => exact .inl ⟨rfl, rfl⟩
  | many a b rest => exact .inr ⟨Nat.le_add_left 2 rest.length, rfl⟩

/-! ## Halves -/

namespace Axes

/-- The x axes, one or many; a half that is absent has none. -/
def xs (axes : Axes) : List Axis :=
  (axes.x.map OneOrMany.toList).getD []

/-- The y axes. -/
def ys (axes : Axes) : List Axis :=
  (axes.y.map OneOrMany.toList).getD []

variable {axes horizontal vertical : List ChartDoc.Axis}

theorem xs_of (h : Interleaves axes horizontal vertical) :
    (of axes).xs = horizontal.map Axis.of := by
  rw [h.of_eq, xs, OneOrMany.toList_ofList?]

theorem ys_of (h : Interleaves axes horizontal vertical) : (of axes).ys = vertical.map Axis.of := by
  rw [h.of_eq, ys, OneOrMany.toList_ofList?]

theorem shortest_of (axes : List ChartDoc.Axis) :
    OneOrMany.Shortest (of axes).xs (of axes).x ∧ OneOrMany.Shortest (of axes).ys (of axes).y := by
  obtain ⟨horizontal, vertical, h⟩ := exists_interleaves axes
  rw [xs_of h, ys_of h, h.of_eq]
  exact ⟨OneOrMany.shortest_ofList? _, OneOrMany.shortest_ofList? _⟩

/-- The halves of a list of axes hold the axes at the bottom and the top, and those at the left
    and the right, in order, each axis once. Each half is in its shortest form, also in JSON. The
    halves of a list behind another hold what the halves of both lists hold, and how the two sorts
    of axes are interleaved does not matter. -/
theorem of_interleaves (axes : List ChartDoc.Axis) :
    (∃ horizontal vertical, Interleaves axes horizontal vertical ∧
      (of axes).xs = horizontal.map Axis.of ∧ (of axes).ys = vertical.map Axis.of) ∧
    (of axes).xs.length + (of axes).ys.length = axes.length ∧
    (OneOrMany.Shortest (of axes).xs (of axes).x ∧ OneOrMany.Shortest (of axes).ys (of axes).y) ∧
    (∀ v, (of axes).x = some v ∨ (of axes).y = some v →
      (v.length = 1 ∧ (v.json Axis.json).kind = .object) ∨
        (2 ≤ v.length ∧ (v.json Axis.json).kind = .array)) ∧
    (∀ more, (of (axes ++ more)).xs = (of axes).xs ++ (of more).xs ∧
      (of (axes ++ more)).ys = (of axes).ys ++ (of more).ys) ∧
    ∀ axes' horizontal vertical, Interleaves axes horizontal vertical →
      Interleaves axes' horizontal vertical → of axes' = of axes := by
  obtain ⟨horizontal, vertical, h⟩ := exists_interleaves axes
  obtain ⟨shortestX, shortestY⟩ := shortest_of axes
  refine ⟨⟨horizontal, vertical, h, xs_of h, ys_of h⟩, ?_, ⟨shortestX, shortestY⟩, ?_, ?_, ?_⟩
  · rw [xs_of h, ys_of h, List.length_map, List.length_map, h.length_eq]
  · rintro v (hv | hv)
    · rw [hv] at shortestX
      exact shortestX.kind_json
    · rw [hv] at shortestY
      exact shortestY.kind_json
  · intro more
    obtain ⟨horizontal', vertical', h'⟩ := exists_interleaves more
    have hboth := h.append h'
    rw [xs_of hboth, xs_of h, xs_of h', ys_of hboth, ys_of h, ys_of h', List.map_append,
      List.map_append]
    exact ⟨rfl, rfl⟩
  · intro axes' horizontal' vertical' given given'
    rw [given.of_eq, given'.of_eq]

/-- Axes at the top, at the right and at the bottom. -/
def sidedAxes : List ChartDoc.Axis :=
  [.bare "a" .time .top, .bare "b" .value .right, .bare "c" .category .bottom]

/-- The same axes, the one at the right in front of the others. -/
def shuffledAxes : List ChartDoc.Axis :=
  [.bare "b" .value .right, .bare "a" .time .top, .bare "c" .category .bottom]

theorem of_interleaves_sidedAxes :
    Interleaves sidedAxes [.bare "a" .time .top, .bare "c" .category .bottom]
        [.bare "b" .value .right] ∧
      Interleaves shuffledAxes [.bare "a" .time .top, .bare "c" .category .bottom]
        [.bare "b" .value .right] ∧
      of shuffledAxes = of sidedAxes ∧
      ∃ x y, of sidedAxes = ⟨some x, some y⟩ ∧
        x.toList = [⟨.time, none, none, none⟩, ⟨.category, none, none, none⟩] ∧
        y.toList = [⟨.value, none, none, none⟩] ∧
        (x.json Axis.json).kind = .array ∧ (y.json Axis.json).kind = .object := by
  have h : Interleaves sidedAxes [.bare "a" .time .top, .bare "c" .category .bottom]
      [.bare "b" .value .right] :=
    .horizontal (.inr rfl) (.vertical (.inr rfl) (.horizontal (.inl rfl) .nil))
  have h' : Interleaves shuffledAxes [.bare "a" .time .top, .bare "c" .category .bottom]
      [.bare "b" .value .right] :=
    .vertical (.inr rfl) (.horizontal (.inr rfl) (.horizontal (.inl rfl) .nil))
  obtain ⟨-, -, -, hkind, -, hsame⟩ := of_interleaves sidedAxes
  refine ⟨h, h', hsame shuffledAxes _ _ h h', _, _, rfl, rfl, rfl, ?_, ?_⟩
  · exact ((hkind _ (.inl rfl)).resolve_left fun hone => absurd hone.1 (by decide)).2
  · exact ((hkind _ (.inr rfl)).resolve_right fun hmany => absurd hmany.1 (by decide)).2

end Axes

end Renderer

end ChartDoc
