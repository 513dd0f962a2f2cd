/-
  The parts of renderer configurations are written faithfully: two parts are equal exactly when
  their JSON forms are. There are two conditions. All numbers have to be finite, as no other
  number has a JSON form; and a series must have no sizer, as sizers have none either.

  Each law follows from the laws of the parts, because a record is compared member by member.
  What keeps the rest apart is this: the three kinds of cells are written as null, a number and
  a text; a single axis is written as an object and a list of axes as an array; and a part that
  is there without setting anything is an empty object, while an absent one is not written.
-/
import ChartDoc.Proofs.Json.Equality
import ChartDoc.Renderer.Config

namespace ChartDoc

namespace Renderer

open Json

/-- A number that may be absent is finite. -/
def FiniteIfSome (x : Option Binary64) : Prop :=
  ∀ y, x = some y → y.isFinite = true

/-! ## Cells and tables -/

def Cell.AllFinite (c : Cell) : Prop :=
  ∀ x, c = number x → x.isFinite = true

theorem Cell.AllFinite.cases {c : Cell} (h : c.AllFinite) :
    c = null ∨ (∃ x, c = number (.finite x)) ∨ ∃ s, c = text s := by
  cases c with
  | null => exact .inl rfl
  | number x =>
    obtain ⟨y, rfl⟩ := Binary64.isFinite_iff.mp (h x rfl)
    exact .inr (.inl ⟨y, rfl⟩)
  | text s => exact .inr (.inr ⟨s, rfl⟩)

theorem Cell.faithful : Faithful AllFinite json := by
  intro a b ha hb
  rcases ha.cases with rfl | ⟨x, rfl⟩ | ⟨s, rfl⟩ <;>
    rcases hb.cases with rfl | ⟨y, rfl⟩ | ⟨t, rfl⟩ <;> rfl

/-- All numbers in the cells of a table are finite. -/
def Table.AllFinite (t : Table) : Prop :=
  ∀ row ∈ t.source, ∀ c ∈ row, c.AllFinite

theorem Table.faithful : Faithful AllFinite json := by
  intro a b ha hb
  exact Rows.same_record
    (.always_any faithful_string <| .always_any faithful_ofStrings <|
      .always Cell.faithful.list.list ha hb .nil)
    -- a row of members ends with the empty one, a structure with its last part
    (by decide) (by rw [Bool.and_true]; rfl)

/-! ## Axes -/

def Axis.AllFinite (a : Axis) : Prop :=
  FiniteIfSome a.min ∧ FiniteIfSome a.max

theorem Axis.faithful : Faithful AllFinite json := by
  intro a b ha hb
  exact Rows.same_record
    (.always_any faithful_vocabulary <| .whenSome_any faithful_string <|
      .whenSome faithful_ofBinary64 ha.1 hb.1 <|
      .whenSome faithful_ofBinary64 ha.2 hb.2 .nil)
    (by decide) (by rw [Bool.and_true]; rfl)

/-- A single value that is written as an object is told from a list. -/
theorem OneOrMany.faithful {α : Type} [BEq α] {Fine : α → Prop} {encode : α → Json}
    (h : Faithful Fine encode) (hobject : ∀ a, ∃ members, encode a = .object members) :
    Faithful (fun v => ∀ a ∈ v.toList, Fine a) (OneOrMany.json encode) := by
  intro v w hv hw
  cases v with
  | one a =>
    have ha : Fine a := hv a List.mem_cons_self
    cases w with
    | one b => exact h a b ha (hw b List.mem_cons_self)
    | many bs =>
      obtain ⟨members, hmembers⟩ := hobject a
      show (encode a).same (.list encode bs) = false
      rw [hmembers]
      rfl
  | many as =>
    cases w with
    | one b =>
      obtain ⟨members, hmembers⟩ := hobject b
      show (Json.list encode as).same (encode b) = false
      rw [hmembers]
      rfl
    | many bs => exact h.list as bs hv hw

/-! ## Series -/

theorem SeriesEncoding.faithful : Faithful (fun _ => True) json := by
  intro a b _ _
  exact Rows.same_record
    (.whenSome_any faithful_string <| .whenSome_any faithful_string <|
      .whenSome_any faithful_string <| .whenSome_any faithful_string .nil)
    (by decide) (by rw [Bool.eq_iff_iff]; cases a; cases b; simp)

def LineStyle.AllFinite (s : LineStyle) : Prop :=
  FiniteIfSome s.opacity

theorem LineStyle.faithful : Faithful AllFinite json := by
  intro a b ha hb
  exact Rows.same_record
    (.whenSome_any faithful_string <| .whenSome faithful_ofBinary64 ha hb .nil)
    (by decide) (by rw [Bool.and_true]; rfl)

def ItemStyle.AllFinite (s : ItemStyle) : Prop :=
  FiniteIfSome s.opacity ∧ FiniteIfSome s.borderWidth

theorem ItemStyle.faithful : Faithful AllFinite json := by
  intro a b ha hb
  exact Rows.same_record
    (.whenSome_any faithful_string <| .whenSome faithful_ofBinary64 ha.1 hb.1 <|
      .whenSome_any faithful_string <| .whenSome faithful_ofBinary64 ha.2 hb.2 .nil)
    (by decide) (by rw [Bool.and_true]; rfl)

def AreaStyle.AllFinite (s : AreaStyle) : Prop :=
  FiniteIfSome s.opacity

theorem AreaStyle.faithful : Faithful AllFinite json := by
  intro a b ha hb
  exact Rows.same_record (.whenSome faithful_ofBinary64 ha hb .nil)
    (by decide) (by rw [Bool.and_true]; rfl)

namespace Series

/-- All numbers in the styles of a series are finite. -/
structure AllFinite (s : Series) : Prop where
  line : ∀ style, s.lineStyle = some style → style.AllFinite
  item : ∀ style, s.itemStyle = some style → style.AllFinite
  area : ∀ style, s.areaStyle = some style → style.AllFinite

/-- A series without its sizer: what is written of it. -/
def unsized (s : Series) : Series :=
  { s with symbolSize := none }

theorem json_unsized (s : Series) : s.unsized.json = s.json := rfl

/-- Two series without sizers are compared part by part, and the sizers come last. -/
theorem faithful : Faithful (fun s => s.AllFinite ∧ s.symbolSize = none) json := by
  intro a b ha hb
  refine Rows.same_record
    (.always_any faithful_vocabulary <| .always_any faithful_string <|
      .always_any faithful_ofNat <| .whenSome_any SeriesEncoding.faithful <|
      .whenSome_any faithful_bool <| .whenSome_any faithful_string <|
      .whenSome LineStyle.faithful ha.1.line hb.1.line <|
      .whenSome ItemStyle.faithful ha.1.item hb.1.item <|
      .whenSome AreaStyle.faithful ha.1.area hb.1.area .nil)
    (by decide) ?_
  obtain ⟨-, ha⟩ := ha
  obtain ⟨-, hb⟩ := hb
  cases a
  cases b
  subst ha hb
  rfl

end Series

/-! ## Furniture -/

theorem Title.faithful : Faithful (fun _ => True) json := by
  intro a b _ _
  exact Rows.same_record (.always_any faithful_string .nil) (by decide)
    (by rw [Bool.eq_iff_iff]; cases a; cases b; simp)

theorem Legend.faithful : Faithful (fun _ => True) json := by
  intro a b _ _
  exact Rows.same_record
    (.whenSome_any faithful_bool <| .whenSome_any faithful_string <|
      .whenSome_any faithful_string <| .whenSome_any faithful_string <|
      .whenSome_any faithful_string <| .whenSome_any faithful_vocabulary <|
      .always_any faithful_ofStrings .nil)
    (by decide) (by rw [Bool.eq_iff_iff]; cases a; cases b; simp)

theorem Tooltip.faithful : Faithful (fun _ => True) json := by
  intro a b _ _
  exact Rows.same_record
    (.whenSome_any faithful_bool <| .whenSome_any faithful_vocabulary .nil)
    (by decide) (by rw [Bool.eq_iff_iff]; cases a; cases b; simp)

theorem Grid.faithful : Faithful (fun _ => True) json := by
  intro a b _ _
  exact Rows.same_record
    (.whenSome_any faithful_string <| .whenSome_any faithful_string <|
      .whenSome_any faithful_string <| .whenSome_any faithful_string <|
      .whenSome_any faithful_string <| .whenSome_any faithful_string <|
      .whenSome_any faithful_bool .nil)
    (by decide) (by rw [Bool.eq_iff_iff]; cases a; cases b; simp)

end Renderer

end ChartDoc
