/-
  Settings and the equality of configurations. The configurations that two settings with equal
  opacities give an accepted document are equal without their sizers; so they are equal exactly
  when their sizers have the same keys, and the keys say the sizing parameters. Settings are
  compared as numbers, though, and keys as texts: two scales that are zeros of different sign
  are equal, and their texts are not. That is the only case in which equal settings give
  different configurations (`compile_settings_iff`).
-/
import ChartDoc.Proofs.Compiler.Equality
import ChartDoc.Proofs.Compiler.Isolation
import ChartDoc.Proofs.Renderer.SizerKey

namespace ChartDoc

namespace Renderer

/-! ## Equality with itself -/

theorem FiniteIfSome.beq_self {x : Option Binary64} (h : FiniteIfSome x) : (x == x) = true := by
  cases x with
  | none => rfl
  | some y =>
    rw [Option.some_beq_some, Binary64.beq_self_iff]
    rintro rfl
    cases h _ rfl

theorem option_beq_self {α : Type} [BEq α] {x : Option α}
    (h : ∀ a, x = some a → (a == a) = true) : (x == x) = true := by
  cases x with
  | none => rfl
  | some a => exact h a rfl

theorem map_beq_map {α β : Type} [BEq β] {f g : α → β} {xs : List α}
    (h : ∀ x ∈ xs, (f x == g x) = true) : (xs.map f == xs.map g) = true := by
  induction xs with
  | nil => rfl
  | cons x xs ih =>
    obtain ⟨hx, hxs⟩ := List.forall_mem_cons.mp h
    rw [List.map_cons, List.map_cons, List.cons_beq_cons, hx, ih hxs]
    rfl

theorem list_beq_self {α : Type} [BEq α] {xs : List α} (h : ∀ x ∈ xs, (x == x) = true) :
    (xs == xs) = true := by
  simpa using map_beq_map (f := id) (g := id) h

theorem Cell.beq_self {c : Cell} (h : c.AllFinite) : (c == c) = true := by
  rcases h.cases with rfl | ⟨x, rfl⟩ | ⟨s, rfl⟩
  · rfl
  · show (Binary64.finite x == Binary64.finite x) = true
    rw [Binary64.beq_self_iff]
    nofun
  · show (s == s) = true
    rw [beq_iff_eq]

theorem Table.beq_self {t : Table} (h : t.AllFinite) : (t == t) = true := by
  have hsource : (t.source == t.source) = true :=
    list_beq_self fun row hrow => list_beq_self fun c hc => Cell.beq_self (h row hrow c hc)
  show (t.id == t.id && (t.dimensions == t.dimensions && t.source == t.source)) = true
  rw [hsource]
  simp

theorem Axis.beq_self {a : Axis} (h : a.AllFinite) : (a == a) = true := by
  show (a.type == a.type && (a.name == a.name && (a.min == a.min && a.max == a.max))) = true
  rw [h.1.beq_self, h.2.beq_self]
  simp

theorem OneOrMany.beq_self {α : Type} [BEq α] {v : OneOrMany α}
    (h : ∀ a ∈ v.toList, (a == a) = true) : (v == v) = true := by
  cases v with
  | one a => exact h a List.mem_cons_self
  | many as => exact list_beq_self h

theorem LineStyle.beq_self {s : LineStyle} (h : s.AllFinite) : (s == s) = true := by
  rw [beq_eq, FiniteIfSome.beq_self h]
  simp

theorem ItemStyle.beq_self {s : ItemStyle} (h : s.AllFinite) : (s == s) = true := by
  rw [beq_eq, h.1.beq_self, h.2.beq_self]
  simp

/-! ## Series of two compilers -/

namespace Series

variable {defaults defaults' : SeriesDefaults} {datasets : List Dataset} {m : Mark}

/-- With equal opacities the area styles are equal, although they may be written as different
    zeros. -/
theorem of_areaStyle_beq (hstyle : ∀ s, m.style = some s → s.AllFinite)
    (h : (defaults.areaOpacity == defaults'.areaOpacity) = true) :
    ((Series.of defaults datasets m).areaStyle ==
      (Series.of defaults' datasets m).areaStyle) = true := by
  have harea : ((AreaStyle.of defaults.areaOpacity m.style).opacity ==
      (AreaStyle.of defaults'.areaOpacity m.style).opacity) = true := by
    unfold AreaStyle.of
    cases hs : m.style with
    | none => rfl
    | some s =>
      cases hopacity : s.opacity with
      | none =>
        simpa [hopacity] using h
      | some x =>
        have hx : FiniteIfSome s.opacity := (hstyle s hs).1
        simpa [hopacity] using hx.beq_self
  unfold Series.of
  cases m.geometry with
  | area => exact harea
  | _ => rfl

/-- The series of two compilers are equal without their sizers when the opacities are. -/
theorem of_unsized_beq (hopacity : defaults.areaOpacity.isFinite = true)
    (hstyle : ∀ s, m.style = some s → s.AllFinite)
    (h : (defaults.areaOpacity == defaults'.areaOpacity) = true) :
    ((Series.of defaults datasets m).unsized == (Series.of defaults' datasets m).unsized) =
      true := by
  have hframe : (Series.of defaults' datasets m).unsized =
      { (Series.of defaults datasets m).unsized with
        areaStyle := (Series.of defaults' datasets m).areaStyle } := by
    unfold Series.of
    cases m.geometry <;> rfl
  have hfinite := Series.of_allFinite hopacity hstyle datasets
  have hline := option_beq_self fun s hs => LineStyle.beq_self (hfinite.line s hs)
  have hitem := option_beq_self fun s hs => ItemStyle.beq_self (hfinite.item s hs)
  have harea : ((Series.of defaults datasets m).areaStyle ==
      (Series.of defaults' datasets m).areaStyle) = true := of_areaStyle_beq hstyle h
  rw [hframe, Series.beq_eq]
  simp only [unsized, hline, hitem, harea]
  simp

/-- The series of two compilers are sized alike unless the mark is sized and the sizers have
    different keys. -/
theorem sizedAlike_of_iff :
    SizedAlike (Series.of defaults datasets m) (Series.of defaults' datasets m) ↔
      (m.IsSized → defaults.sizer.key = defaults'.sizer.key) := by
  rw [sizedAlike_iff, of_symbolSize, of_symbolSize]
  by_cases hsized : m.IsSized
  · rw [if_pos hsized, if_pos hsized, Option.some_beq_some, SymbolSizer.beq_iff]
    exact ⟨fun h _ => h, fun h => h hsized⟩
  · rw [if_neg hsized, if_neg hsized]
    exact iff_of_true rfl fun h => absurd h hsized

end Series

end Renderer

open Renderer

/-- All numbers in settings are finite. -/
structure Settings.AllFinite (s : Settings) : Prop where
  opacity : s.areaOpacity.isFinite = true
  scale : s.symbolScale.isFinite = true

theorem Settings.standard_allFinite : Settings.standard.AllFinite :=
  ⟨by decide +kernel, by decide +kernel⟩

/-- Settings are compared number by number. -/
theorem Settings.beq_eq (s s' : Settings) :
    (s == s') = (s.areaOpacity == s'.areaOpacity && (s.symbolScale == s'.symbolScale &&
      s.symbolDimension == s'.symbolDimension)) := rfl

namespace Compiler

variable {c c' : Compiler} {d : Document}

/-- The configurations of two compilers are equal without their sizers when the opacities are. -/
theorem config_unsized_beq (hc : c.settings.areaOpacity.isFinite = true) (hd : d.AllFinite)
    (h : (c.settings.areaOpacity == c'.settings.areaOpacity) = true) :
    ((c.config d).unsized == (c'.config d).unsized) = true := by
  have hfinite := config_allFinite hc hd
  have hdataset : ((c.config d).dataset == (c.config d).dataset) = true :=
    option_beq_self fun ts hts => list_beq_self fun t ht =>
      Table.beq_self (Config.forall_of_getD hfinite.tables ts hts t ht)
  have hx : ((c.config d).xAxis == (c.config d).xAxis) = true :=
    option_beq_self fun v hv => OneOrMany.beq_self fun a ha =>
      Axis.beq_self (Config.forall_of_toList hfinite.xAxes v hv a ha)
  have hy : ((c.config d).yAxis == (c.config d).yAxis) = true :=
    option_beq_self fun v hv => OneOrMany.beq_self fun a ha =>
      Axis.beq_self (Config.forall_of_toList hfinite.yAxes v hv a ha)
  have hseries : ((c.config d).unsized.series == (c'.config d).unsized.series) = true := by
    show ((unlessEmpty (d.marks.map (Series.of c.defaults d.datasets))).map
        (List.map Series.unsized) ==
      (unlessEmpty (d.marks.map (Series.of c'.defaults d.datasets))).map
        (List.map Series.unsized)) = true
    have hmarks := hd.1
    generalize d.marks = marks at hmarks ⊢
    cases marks with
    | nil => rfl
    | cons m ms =>
      show (((m :: ms).map _).map Series.unsized == ((m :: ms).map _).map Series.unsized) = true
      rw [List.map_map, List.map_map]
      exact map_beq_map fun m hm => Series.of_unsized_beq hc (hmarks m hm) h
  rw [Config.beq_eq, hseries]
  show ((c.config d).title == (c.config d).title && ((c.config d).dataset == (c.config d).dataset &&
    (true && ((c.config d).xAxis == (c.config d).xAxis &&
      ((c.config d).yAxis == (c.config d).yAxis && ((c.config d).legend == (c.config d).legend &&
        ((c.config d).tooltip == (c.config d).tooltip &&
          (c.config d).grid == (c.config d).grid))))))) = true
  rw [hdataset, hx, hy]
  simp

/-- The series of two compilers are sized alike when no mark is sized, or when the sizers have
    the same key. -/
theorem sizedAlike_config_iff :
    List.Forall₂ SizedAlike (c.config d).allSeries (c'.config d).allSeries ↔
      ((∃ m ∈ d.marks, m.IsSized) → c.sizer.key = c'.sizer.key) := by
  rw [allSeries_config, allSeries_config, List.forall₂_map_left_iff, List.forall₂_map_right_iff,
    List.forall₂_same]
  simp only [Series.sizedAlike_of_iff]
  exact ⟨fun h ⟨m, hm, hsized⟩ => h m hm hsized, fun h m hm hsized => h ⟨m, hm, hsized⟩⟩

/-- Two settings with finite numbers and equal opacities give an accepted document with a sized
    mark equal configurations exactly when the settings are equal and their scales have the same
    sign. The sign matters for the two zeros only: they are equal, but a sizer is known by the
    text of its scale, which shows the sign. -/
theorem compile_settings_iff {s s' : Settings} {v : Json} (accepted : Document.ofValue v = .ok d)
    (sized : ∃ m ∈ d.marks, m.IsSized) (finite : s.AllFinite) (finite' : s'.AllFinite)
    (opacity : (s.areaOpacity == s'.areaOpacity) = true) :
    (((ofSettings s).compile d).config == ((ofSettings s').compile d).config) = true ↔
      (s == s') = true ∧ s.symbolScale.negative = s'.symbolScale.negative := by
  have hunsized : (((ofSettings s).config d).unsized == ((ofSettings s').config d).unsized) =
      true :=
    config_unsized_beq finite.opacity (Document.allFinite_of_ofValue accepted) opacity
  have hkeys : s.sizing.key = s'.sizing.key ↔
      s.symbolDimension = s'.symbolDimension ∧ s.symbolScale = s'.symbolScale := by
    rw [RootSizing.key_eq_iff]
    exact RootSizing.mk.injEq _ _ _ _ ▸ Iff.rfl
  have hdimension : (s.symbolDimension == s'.symbolDimension) = true ↔
      s.symbolDimension = s'.symbolDimension := beq_iff_eq
  calc ((ofSettings s).config d == (ofSettings s').config d) = true
      ↔ s.sizing.key = s'.sizing.key := by
        rw [Config.beq_iff, hunsized, sizedAlike_config_iff]
        exact ⟨fun h => h.2 sized, fun h => ⟨rfl, fun _ => h⟩⟩
    _ ↔ s.symbolDimension = s'.symbolDimension ∧ (s.symbolScale == s'.symbolScale) = true ∧
          s.symbolScale.negative = s'.symbolScale.negative := by
        rw [hkeys, Binary64.eq_iff_beq_and_negative finite.scale finite'.scale]
    _ ↔ (s == s') = true ∧ s.symbolScale.negative = s'.symbolScale.negative := by
        rw [Settings.beq_eq, opacity, Bool.true_and, Bool.and_eq_true, hdimension, and_assoc,
          and_left_comm]

theorem ofValue_sizedDocument :
    Document.ofValue (sizedDocument "0").json = .ok (sizedDocument "0") :=
  Document.ofValue_json_eq_ok_iff.mpr ⟨rfl, sizedDocument_allFinite "0"⟩

theorem exists_isSized_sizedDocument : ∃ m ∈ (sizedDocument "0").marks, m.IsSized :=
  ⟨_, List.mem_cons_self, rfl, "x", rfl, by decide⟩

theorem compile_settings_iff_scaled :
    Document.ofValue (sizedDocument "0").json = .ok (sizedDocument "0") ∧
      (∃ m ∈ (sizedDocument "0").marks, m.IsSized) ∧
      Settings.standard.AllFinite ∧ scaledSettings.AllFinite ∧
      (Settings.standard.areaOpacity == scaledSettings.areaOpacity) = true ∧
      (((ofSettings .standard).compile (sizedDocument "0")).config ==
        ((ofSettings scaledSettings).compile (sizedDocument "0")).config) = false := by
  have hscaled : scaledSettings.AllFinite := ⟨by decide +kernel, by decide +kernel⟩
  have hopacity : (Settings.standard.areaOpacity == scaledSettings.areaOpacity) = true := by
    decide +kernel
  have hne : (Settings.standard == scaledSettings) = false := by
    decide +kernel
  have hiff := compile_settings_iff ofValue_sizedDocument exists_isSized_sizedDocument
    Settings.standard_allFinite hscaled hopacity
  refine ⟨ofValue_sizedDocument, exists_isSized_sizedDocument,
    Settings.standard_allFinite, hscaled, hopacity, ?_⟩
  rw [← Bool.not_eq_true, hiff, hne]
  nofun

/-- The settings with a zero as scale. -/
def zeroScaled (negative : Bool) : Settings :=
  { Settings.standard with symbolScale := .finite (.zero negative) }

/-- The two zeros are equal scales, and the configurations differ. -/
theorem compile_zeroScaled :
    Document.ofValue (sizedDocument "0").json = .ok (sizedDocument "0") ∧
      (∃ m ∈ (sizedDocument "0").marks, m.IsSized) ∧
      (zeroScaled false).AllFinite ∧ (zeroScaled true).AllFinite ∧
      ((zeroScaled false).areaOpacity == (zeroScaled true).areaOpacity) = true ∧
      (zeroScaled false == zeroScaled true) = true ∧
      (((ofSettings (zeroScaled false)).compile (sizedDocument "0")).config ==
        ((ofSettings (zeroScaled true)).compile (sizedDocument "0")).config) = false :=
  ⟨ofValue_sizedDocument, exists_isSized_sizedDocument, ⟨by decide +kernel, by decide +kernel⟩,
    ⟨by decide +kernel, by decide +kernel⟩, by decide +kernel, by decide +kernel,
    by decide +kernel⟩

end Compiler

end ChartDoc
