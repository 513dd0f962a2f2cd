/-
  What of a mark is visible in its series. Two marks are drawn alike (`DrawnAlike`) when they
  agree on what their geometry takes from a mark; this relation mentions neither series nor the
  functions that read marks for them. Numbers are compared as numbers: two zeros are equal, and
  a NaN equals nothing, so that a mark with one in its style is not even drawn like itself.
  Unless the opacity for areas is NaN, marks have equal series exactly when they are drawn alike,
  and what the relation leaves out can be replaced without any effect
  (`Series.beq_iff_drawnAlike`).

  Series are compared part by part (`Series.beq_eq`), and each part has one equation for all
  geometries (`Series.of_eq`). Lines and areas have the same type of series; the area style tells
  them apart, as areas always have one and lines never do. The line and area styles add nothing
  to the comparison, since all they say is also in the item style.
-/
import ChartDoc.Proofs.Compiler.Equality
import ChartDoc.Proofs.Compiler.Marks

namespace ChartDoc

/-- Two styles are alike: an empty color is no color, and numbers are compared as numbers. -/
structure Style.Alike (s t : Style) : Prop where
  color : SameText s.color t.color
  opacity : (s.opacity == t.opacity) = true
  borderColor : SameText s.borderColor t.borderColor
  borderWidth : (s.borderWidth == t.borderWidth) = true

namespace Renderer

/-- Two marks over the same datasets are drawn alike. -/
structure DrawnAlike (datasets : List Dataset) (m n : Mark) : Prop where
  geometry : m.geometry = n.geometry
  name : ∃ label, m.Labelled label ∧ n.Labelled label
  /-- A mark without a dataset is drawn from the first one. -/
  dataset : ∃ index, Resolves datasets m.datasetId index ∧ Resolves datasets n.datasetId index
  x : SameText m.encode.x n.encode.x
  y : SameText m.encode.y n.encode.y
  value : SameText m.encode.value n.encode.value
  itemName : SameText m.encode.name n.encode.name
  /-- Both styles are absent, or both are present and alike. -/
  style : Option.Rel Style.Alike m.style n.style
  smooth : m.geometry = .line ∨ m.geometry = .area →
    (m.smooth = some true ↔ n.smooth = some true)
  stack : m.geometry = .bar → SameText m.stack n.stack
  size : m.IsSized ↔ n.IsSized

/-! ## Parts of a series -/

theorem option_map_beq {α β : Type} [BEq β] {f : α → β} {R : α → α → Prop}
    (h : ∀ a b, R a b → (f a == f b) = true) {x y : Option α} (hxy : Option.Rel R x y) :
    (x.map f == y.map f) = true := by
  cases hxy with
  | none => rfl
  | some hab => exact h _ _ hab

theorem option_map_beq_iff {α β : Type} [BEq β] {f : α → β} {R : α → α → Prop}
    (h : ∀ a b, (f a == f b) = true ↔ R a b) {x y : Option α} :
    (x.map f == y.map f) = true ↔ Option.Rel R x y := by
  refine ⟨fun hbeq => ?_, option_map_beq fun a b => (h a b).mpr⟩
  cases x with
  | none =>
    cases y with
    | none => exact .none
    | some b => cases hbeq
  | some a =>
    cases y with
    | none => cases hbeq
    | some b => exact .some ((h a b).mp hbeq)

theorem SeriesEncoding.of_eq_iff {e e' : Encoding} :
    SeriesEncoding.of e = SeriesEncoding.of e' ↔
      SameText e.x e'.x ∧ SameText e.y e'.y ∧ SameText e.value e'.value ∧
        SameText e.name e'.name := by
  simp only [of, mk.injEq, nonEmpty?_eq_iff]

/-- Encodings without any channel are equal, so leaving them out loses nothing. -/
theorem SeriesEncoding.eq_of_isEmpty {e e' : SeriesEncoding} (h : e.isEmpty = true)
    (h' : e'.isEmpty = true) : e = e' := by
  cases e
  cases e'
  simp_all [isEmpty]

theorem SeriesEncoding.present_eq_iff {e e' : SeriesEncoding} :
    (if e.isEmpty then none else some e) = (if e'.isEmpty then none else some e') ↔ e = e' := by
  refine ⟨fun h => ?_, fun h => h ▸ rfl⟩
  split at h
  · split at h
    · exact eq_of_isEmpty ‹_› ‹_›
    · cases h
  · split at h
    · cases h
    · exact Option.some.inj h

theorem ItemStyle.of_beq_iff {s t : Style} : (of s == of t) = true ↔ s.Alike t := by
  simp only [beq_eq, of, Bool.and_eq_true, beq_iff_eq, nonEmpty?_eq_iff]
  exact ⟨fun ⟨hcolor, hopacity, hborder, hwidth⟩ => ⟨hcolor, hopacity, hborder, hwidth⟩,
    fun h => ⟨h.color, h.opacity, h.borderColor, h.borderWidth⟩⟩

theorem LineStyle.of_beq {s t : Style} (h : s.Alike t) : (of s == of t) = true := by
  simp only [beq_eq, of, Bool.and_eq_true, beq_iff_eq, nonEmpty?_eq_iff]
  exact ⟨h.color, h.opacity⟩

/-- Numbers that may be absent stay equal when a number that equals itself stands in for them. -/
theorem getD_beq_getD {x y : Option Binary64} {z : Binary64} (h : (x == y) = true)
    (hz : z ≠ .nan) : (x.getD z == y.getD z) = true := by
  cases x with
  | none =>
    cases y with
    | none => exact Binary64.beq_self_iff.mpr hz
    | some b => cases h
  | some a =>
    cases y with
    | none => cases h
    | some b => exact h

theorem AreaStyle.of_beq {opacity : Binary64} (hopacity : opacity ≠ .nan)
    {style style' : Option Style} (h : Option.Rel Style.Alike style style') :
    (of opacity style == of opacity style') = true := by
  cases h with
  | none => rfl
  | some halike => exact getD_beq_getD halike.opacity hopacity

namespace Series

variable {defaults : SeriesDefaults} {datasets : List Dataset} {m n : Mark}

theorem smoothness_eq_iff :
    smoothness m = smoothness n ↔ (m.smooth = some true ↔ n.smooth = some true) := by
  unfold smoothness
  by_cases hm : m.smooth = some true <;> by_cases hn : n.smooth = some true <;> simp [hm, hn]

/-- Each part of a series with the geometries that have it. -/
theorem of_eq (defaults : SeriesDefaults) (datasets : List Dataset) (m : Mark) :
    of defaults datasets m =
      { base m datasets with
        smooth := if m.geometry = .line ∨ m.geometry = .area then smoothness m else none
        stack := if m.geometry = .bar then nonEmpty? m.stack else none
        lineStyle :=
          if m.geometry = .line ∨ m.geometry = .area then m.style.map LineStyle.of else none
        itemStyle := m.style.map ItemStyle.of
        areaStyle :=
          if m.geometry = .area then some (.of defaults.areaOpacity m.style) else none
        symbolSize := if m.IsSized then some defaults.sizer else none } := by
  unfold of
  simp only [Mark.isSized_iff]
  cases m.geometry <;> simp [base]

theorem of_type : (of defaults datasets m).type = .of m.geometry := by
  rw [of_eq, base]

theorem of_name : (of defaults datasets m).name = m.displayName := by
  rw [of_eq, base]

theorem encode_eq_iff :
    (of defaults datasets m).encode = (of defaults datasets n).encode ↔
      SameText m.encode.x n.encode.x ∧ SameText m.encode.y n.encode.y ∧
        SameText m.encode.value n.encode.value ∧ SameText m.encode.name n.encode.name := by
  rw [of_eq, of_eq, base, base, SeriesEncoding.present_eq_iff, SeriesEncoding.of_eq_iff]

theorem itemStyle_beq_iff :
    ((of defaults datasets m).itemStyle == (of defaults datasets n).itemStyle) = true ↔
      Option.Rel Style.Alike m.style n.style := by
  rw [of_eq, of_eq]
  exact option_map_beq_iff fun _ _ => ItemStyle.of_beq_iff

/-- The type of a series and the presence of its area style say the geometry. -/
theorem geometry_eq {g g' : Geometry} (htype : SeriesType.of g = SeriesType.of g')
    (harea : g = .area ↔ g' = .area) : g = g' := by
  cases g <;> cases g' <;> simp_all [SeriesType.of]

theorem smooth_eq_iff (hgeometry : m.geometry = n.geometry) :
    (of defaults datasets m).smooth = (of defaults datasets n).smooth ↔
      (m.geometry = .line ∨ m.geometry = .area →
        (m.smooth = some true ↔ n.smooth = some true)) := by
  rw [of_eq, of_eq, ← hgeometry, ← smoothness_eq_iff]
  by_cases h : m.geometry = .line ∨ m.geometry = .area <;> simp [h]

theorem stack_eq_iff (hgeometry : m.geometry = n.geometry) :
    (of defaults datasets m).stack = (of defaults datasets n).stack ↔
      (m.geometry = .bar → SameText m.stack n.stack) := by
  rw [of_eq, of_eq, ← hgeometry, ← nonEmpty?_eq_iff]
  by_cases h : m.geometry = .bar <;> simp [h]

theorem symbolSize_beq_iff :
    ((of defaults datasets m).symbolSize == (of defaults datasets n).symbolSize) = true ↔
      (m.IsSized ↔ n.IsSized) := by
  have hsizer : (defaults.sizer == defaults.sizer) = true := SymbolSizer.beq_iff.mpr rfl
  rw [of_eq, of_eq]
  by_cases hm : m.IsSized <;> by_cases hn : n.IsSized <;> simp [hm, hn, hsizer]

theorem lineStyle_beq (hgeometry : m.geometry = n.geometry)
    (hstyle : Option.Rel Style.Alike m.style n.style) :
    ((of defaults datasets m).lineStyle == (of defaults datasets n).lineStyle) = true := by
  rw [of_eq, of_eq, ← hgeometry]
  by_cases h : m.geometry = .line ∨ m.geometry = .area
  · simp only [if_pos h]
    exact option_map_beq (fun _ _ halike => LineStyle.of_beq halike) hstyle
  · simp only [if_neg h]
    rfl

theorem areaStyle_beq (hopacity : defaults.areaOpacity ≠ .nan)
    (hgeometry : m.geometry = n.geometry) (hstyle : Option.Rel Style.Alike m.style n.style) :
    ((of defaults datasets m).areaStyle == (of defaults datasets n).areaStyle) = true := by
  rw [of_eq, of_eq, ← hgeometry]
  by_cases h : m.geometry = .area
  · simp only [if_pos h]
    exact AreaStyle.of_beq hopacity hstyle
  · simp only [if_neg h]
    rfl

/-- Marks with equal series have the same geometry. -/
theorem geometry_eq_of_beq (h : (of defaults datasets m == of defaults datasets n) = true) :
    m.geometry = n.geometry := by
  rw [of_eq, of_eq, beq_eq] at h
  simp only [Bool.and_eq_true] at h
  obtain ⟨htype, -, -, -, -, -, -, -, harea, -⟩ := h
  refine geometry_eq (beq_iff_eq.mp htype) ?_
  by_cases hm : m.geometry = .area <;> by_cases hn : n.geometry = .area <;> simp_all

theorem drawnAlike_of_beq (h : (of defaults datasets m == of defaults datasets n) = true) :
    DrawnAlike datasets m n := by
  have hgeometry := geometry_eq_of_beq h
  rw [beq_eq] at h
  simp only [Bool.and_eq_true, beq_iff_eq, of_name, Mark.displayName_eq_iff, of_datasetIndex,
    datasetIndex?_getD_eq_iff, encode_eq_iff, smooth_eq_iff hgeometry, stack_eq_iff hgeometry,
    itemStyle_beq_iff, symbolSize_beq_iff] at h
  obtain ⟨-, hname, hdataset, ⟨hx, hy, hvalue, hitem⟩, hsmooth, hstack, -, hstyle, -, hsize⟩ := h
  exact ⟨hgeometry, hname, hdataset, hx, hy, hvalue, hitem, hstyle, hsmooth, hstack, hsize⟩

theorem beq_of_drawnAlike (hopacity : defaults.areaOpacity ≠ .nan) (h : DrawnAlike datasets m n) :
    (of defaults datasets m == of defaults datasets n) = true := by
  have hgeometry := h.geometry
  rw [beq_eq]
  simp only [Bool.and_eq_true, beq_iff_eq, of_type, of_name, Mark.displayName_eq_iff,
    of_datasetIndex, datasetIndex?_getD_eq_iff, encode_eq_iff, smooth_eq_iff hgeometry,
    stack_eq_iff hgeometry, itemStyle_beq_iff, symbolSize_beq_iff]
  exact ⟨congrArg _ hgeometry, h.name, h.dataset, ⟨h.x, h.y, h.value, h.itemName⟩, h.smooth,
    h.stack, lineStyle_beq hgeometry h.style, h.style, areaStyle_beq hopacity hgeometry h.style,
    h.size⟩

/-- What is not drawn can be replaced. -/
theorem of_replaced {coordinateSystem : Option CoordinateSystem} {color size stack : Option String}
    {smooth : Option Bool}
    (hsize : Mark.IsSized { m with encode := { m.encode with size } } ↔ m.IsSized)
    (hstack : m.geometry = .bar → stack = m.stack)
    (hsmooth : m.geometry = .line ∨ m.geometry = .area → smooth = m.smooth) :
    of defaults datasets
        { m with coordinateSystem, encode := { m.encode with color, size }, stack, smooth } =
      of defaults datasets m := by
  obtain ⟨id, datasetId, geometry, _, encode, style, _, _, name⟩ := m
  cases geometry with
  | line =>
    rw [hsmooth (.inl rfl)]
    rfl
  | area =>
    rw [hsmooth (.inr rfl)]
    rfl
  | bar =>
    rw [hstack rfl]
    rfl
  | pie => rfl
  | scatter =>
    have hsized : (nonEmpty? size).isSome = true ↔ (nonEmpty? encode.size).isSome = true := by
      simpa [Mark.isSized_iff] using hsize
    simp only [of, hsized]
    rfl

/-- Marks have equal series exactly when they are drawn alike. The coordinate system, the color
    channel, the column in the size channel, the stack of what is no bar and the smoothness of
    what is neither line nor area are of no consequence. -/
theorem beq_iff_drawnAlike (hopacity : defaults.areaOpacity ≠ .nan) (datasets : List Dataset)
    (m n : Mark) :
    ((of defaults datasets m == of defaults datasets n) = true ↔ DrawnAlike datasets m n) ∧
    ∀ coordinateSystem color size stack smooth,
      (Mark.IsSized { m with encode := { m.encode with size } } ↔ m.IsSized) →
      (m.geometry = .bar → stack = m.stack) →
      (m.geometry = .line ∨ m.geometry = .area → smooth = m.smooth) →
      of defaults datasets
          { m with coordinateSystem, encode := { m.encode with color, size }, stack, smooth } =
        of defaults datasets m := by
  refine ⟨⟨drawnAlike_of_beq, beq_of_drawnAlike hopacity⟩, ?_⟩
  intro coordinateSystem color size stack smooth hsize hstack hsmooth
  exact of_replaced hsize hstack hsmooth

/-- A line with an opacity of zero. -/
def plainLine : Mark :=
  { Mark.bare "m" "d" .line with
    style := some { Style.empty with opacity := some (.finite (.zero false)) } }

/-- The line with empty texts in place of absent ones, the other zero as its opacity, and parts
    that lines do not have. -/
def dressedLine : Mark where
  id := "m"
  datasetId := "d"
  geometry := .line
  coordinateSystem := some .polar
  encode := { Encoding.empty with x := some "", size := some "s", color := some "c" }
  style := some { Style.empty with color := some "", opacity := some (.finite (.zero true)) }
  stack := some "total"
  smooth := some false
  name := some ""

/-- The two lines have equal series; an area in place of the line does not. -/
theorem beq_iff_drawnAlike_plainLine :
    Settings.standard.areaOpacity ≠ .nan ∧
      (of (Compiler.ofSettings .standard).defaults [] plainLine ==
        of (Compiler.ofSettings .standard).defaults [] dressedLine) = true ∧
      (of (Compiler.ofSettings .standard).defaults [] plainLine ==
        of (Compiler.ofSettings .standard).defaults []
          { plainLine with geometry := .area }) = false := by
  have hopacity : (Compiler.ofSettings .standard).defaults.areaOpacity ≠ .nan :=
    Binary64.beq_self_iff.mp (by decide +kernel)
  obtain ⟨hlines, -⟩ := beq_iff_drawnAlike hopacity [] plainLine dressedLine
  obtain ⟨harea, -⟩ := beq_iff_drawnAlike hopacity [] plainLine { plainLine with geometry := .area }
  refine ⟨hopacity, hlines.mpr ?_, ?_⟩
  · exact
      { geometry := rfl
        name := ⟨"m", .unnamed (.inl rfl), .unnamed (.inr rfl)⟩
        dataset := ⟨0, .inr ⟨rfl, nofun⟩, .inr ⟨rfl, nofun⟩⟩
        x := .unsaid (.inl rfl) (.inr rfl)
        y := .unsaid (.inl rfl) (.inl rfl)
        value := .unsaid (.inl rfl) (.inl rfl)
        itemName := .unsaid (.inl rfl) (.inl rfl)
        style := .some
          ⟨.unsaid (.inl rfl) (.inr rfl), rfl, .unsaid (.inl rfl) (.inl rfl), rfl⟩
        smooth := fun _ => by decide
        stack := nofun
        size := by decide }
  · rw [← Bool.not_eq_true, harea]
    intro h
    cases h.geometry

end Series

end Renderer

end ChartDoc
