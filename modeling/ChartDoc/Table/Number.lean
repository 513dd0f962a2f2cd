/-
  Numbers at the front of table cells. Leading blanks are skipped and the longest decimal
  literal is read, so `12px` is 12. There is no number if no literal is found, and none if the
  literal is beyond the greatest finite value.
-/
import ChartDoc.Binary64.Rounding
import ChartDoc.Text.Blank

namespace ChartDoc

/-- The number at the front of a text. -/
def leadingNumber? (raw : String) : Option Binary64.Finite :=
  (Literal.scan (Text.dropBlanks raw.toList)).bind fun found => found.1.value.finite?

end ChartDoc
