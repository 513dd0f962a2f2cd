/-
  Sizers of scatter symbols. A sizer gives each row of a table a size in pixels. It has no JSON
  form; the consumer of a configuration calls it. Two sizers are compared by their keys, so a
  key has to say everything that the size depends on.
-/
import ChartDoc.Binary64.Arithmetic
import ChartDoc.Binary64.Numeral
import ChartDoc.Renderer.Cell

namespace ChartDoc

namespace Renderer

/-- A way to size symbols. -/
structure SymbolSizer where
  name : String
  /-- The identity of the sizer, its parameters included. -/
  key : String
  /-- The size of the symbol for a row. -/
  size : List Cell → Binary64

namespace SymbolSizer

instance : BEq SymbolSizer :=
  ⟨fun a b => a.key == b.key⟩

/-- A sizer without parameters; its name is its key. -/
def ofName (name : String) (size : List Cell → Binary64) : SymbolSizer :=
  ⟨name, name, size⟩

theorem beq_iff {a b : SymbolSizer} : (a == b) = true ↔ a.key = b.key := by
  show (a.key == b.key) = true ↔ _
  exact beq_iff_eq

end SymbolSizer

/-- Sizing by the square root of a cell. -/
structure RootSizing where
  /-- The position of the cell in its row. -/
  dimension : Nat
  scale : Binary64

namespace RootSizing

/-- The parameters that are used unless others are asked for. -/
def standard : RootSizing :=
  ⟨2, 2⟩

/-- The key of the sizer: both parameters in plain decimal form. -/
def key (s : RootSizing) : String :=
  "sqrt(dimension=" ++ naturalText s.dimension ++ ",scale=" ++ s.scale.plain ++ ")"

/-- The scaled square root of the cell; there is none unless the cell holds a number. -/
def size (s : RootSizing) (row : List Cell) : Binary64 :=
  match row[s.dimension]?.bind Cell.number? with
  | some x => x.sqrt * s.scale
  | none => .nan

/-- The sizer with these parameters. -/
def sizer (s : RootSizing) : SymbolSizer :=
  ⟨"sqrt", s.key, s.size⟩

/-- How numbers are written when a sizer is inspected: a point in every number that has no
    exponent, and exponents below `0.0001` and from `1e16` on. -/
def inspectionStyle : Binary64.NumeralStyle where
  tie := .up
  positional power := -4 ≤ power ∧ power < 16
  wholePoint := true
  exponentPlus := false

/-- The text that shows a sizer with its parameters. -/
def inspection (s : RootSizing) : String :=
  "SymbolSize(SqrtSymbolSize \x7b dimension: " ++ naturalText s.dimension ++ ", scale: " ++
    s.scale.text inspectionStyle ++ " \x7d)"

end RootSizing

end Renderer

end ChartDoc
