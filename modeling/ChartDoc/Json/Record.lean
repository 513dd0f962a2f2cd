/-
  Records as JSON objects: members that are always there, and members that may be absent.

  Writing leaves an absent member out; it never writes null for it. Reading takes a missing
  member and a null one as absent, ignores members that nobody asks for, and fails when a
  member that must be there is missing or has the wrong form.
-/
import ChartDoc.Json.Basic

namespace ChartDoc

namespace Json

variable {α : Type}

/-! ## Writing -/

/-- A member that is always written. -/
def always (key : String) (value : Json) : Option (String × Json) :=
  some (key, value)

/-- A member that is written when there is something to write. -/
def whenSome (key : String) (encode : α → Json) (content : Option α) :
    Option (String × Json) :=
  content.map fun a => (key, encode a)

/-- The object with the members that are written. -/
def record (members : List (Option (String × Json))) : Json :=
  object (members.filterMap id)

/-- A list as an array. -/
def list (encode : α → Json) (xs : List α) : Json :=
  array (xs.map encode)

/-! ## Reading -/

/-- The content of a member that must be there. -/
def required? (key : String) (decode : Json → Option α) (members : Entries Json) : Option α :=
  (List.lookup key members).bind decode

/-- The content of a member that may be absent; it fails only on content of the wrong form. -/
def optional? (key : String) (decode : Json → Option α) (members : Entries Json) :
    Option (Option α) :=
  match List.lookup key members with
  | none => some none
  | some null => some none
  | some v => (decode v).map some

/-- The items of an array, if every item has the right form. -/
def list? (decode : Json → Option α) (v : Json) : Option (List α) :=
  v.items?.bind (List.mapM decode)

theorem whenSome_some (key : String) (encode : α → Json) (a : α) :
    whenSome key encode (some a) = some (key, encode a) := rfl

/-- Written lists are read back if their items are. -/
theorem list?_list {encode : α → Json} {decode : Json → Option α} {xs : List α}
    (h : ∀ x ∈ xs, decode (encode x) = some x) : list? decode (list encode xs) = some xs := by
  show List.mapM decode (xs.map encode) = some xs
  induction xs with
  | nil => rfl
  | cons x xs ih =>
    rw [List.map_cons, List.mapM_cons, h x (by simp), ih (fun y hy => h y (by simp [hy]))]
    rfl

end Json

end ChartDoc
