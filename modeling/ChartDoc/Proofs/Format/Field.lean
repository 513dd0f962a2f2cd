/-
  Formats of members. A field is a member of a record that must be there, or one that may be
  absent, with a key and the format of its content. Its laws are about what an object gives
  under the key, if anything; they follow from the laws of the content.
-/
import ChartDoc.Proofs.Format.Basic

namespace ChartDoc

open Schema

/-- A member of a record: one that must be there, or one that may be absent. -/
inductive Field (r : Registry) : Type → Type 1 where
  | required {α : Type} (key : String) (content : Format r α) : Field r α
  | optional {α : Type} (key : String) (content : Format r α) : Field r (Option α)

variable {r : Registry}

namespace Field

variable {α : Type}

def key : Field r α → String
  | required key _ => key
  | optional key _ => key

def shape : Field r α → Shape
  | required _ f => f.shape
  | optional _ f => f.shape

def isRequired : Field r α → Bool
  | required _ _ => true
  | optional _ _ => false

/-- The member that is written. -/
def write : Field r α → α → Option (String × Json)
  | required key f, a => Json.always key (f.write a)
  | optional key f, a => Json.whenSome key f.write a

/-- What is read from the members of an object. -/
def read? : Field r α → Entries Json → Option α
  | required key f, members => Json.required? key f.read? members
  | optional key f, members => Json.optional? key f.read? members

def Sound : Field r α → α → Prop
  | required _ f, a => f.Sound a
  | optional _ f, a => ∀ x, a = some x → f.Sound x

def Finite : Field r α → α → Prop
  | required _ f, a => f.Finite a
  | optional _ f, a => ∀ x, a = some x → f.Finite x

/-- What is written under the key, if anything. -/
def content : Field r α → α → Option Json
  | required _ f, a => some (f.write a)
  | optional _ f, a => a.map f.write

/-- What is read from what is given under the key, if anything. -/
def readGiven? : Field r α → Option Json → Option α
  | required _ f, given => given.bind f.read?
  | optional _ _, none => some none
  | optional _ f, some v => if v.kind = .null then some none else (f.read? v).map some

/-- The walk finds nothing in what is given under the key. -/
def Clean (field : Field r α) (given : Option Json) : Prop :=
  (∀ w, given = some w → r.Clean field.shape.json w) ∧ (field.isRequired = true → given ≠ none)

/-- Null stands for the absent member, or is found in what is given under the key. -/
def HoldsNull (field : Field r α) (given : Option Json) : Prop :=
  (field.isRequired = false ∧ given = some .null) ∨
    ∃ w, given = some w ∧ r.HoldsNull field.shape.json w

theorem write_eq (field : Field r α) (a : α) :
    field.write a = (field.content a).map fun w => (field.key, w) := by
  cases field with
  | required key f => rfl
  | optional key f => exact (Option.map_map ..).symm

theorem read?_eq (field : Field r α) (members : Entries Json) :
    field.read? members = field.readGiven? (List.lookup field.key members) := by
  cases field with
  | required key f => rfl
  | optional key f =>
    show Json.optional? key f.read? members = readGiven? (optional key f) (List.lookup key members)
    unfold Json.optional?
    cases List.lookup key members with
    | none => rfl
    | some v => cases v <;> rfl

theorem formed (field : Field r α) : r.Formed field.shape.json := by
  cases field with
  | required key f => exact f.formed
  | optional key f => exact f.formed

/-! ## Laws of one field -/

theorem kind_ne_null {f : Format r α} {v : Json} {a : α} (h : f.read? v = some a) :
    v.kind ≠ .null := by
  intro hkind
  cases v <;> cases hkind
  rw [f.read?_null] at h
  cases h

theorem clean_iff (field : Field r α) (given : Option Json) :
    field.Clean given ↔
      (∃ a, field.readGiven? given = some a ∧ field.Sound a) ∧ ¬field.HoldsNull given := by
  cases field with
  | required key f =>
    cases given with
    | none => simp [Clean, readGiven?, isRequired]
    | some v =>
      simp only [Clean, HoldsNull, readGiven?, isRequired, shape, Sound, Option.some.injEq,
        forall_eq', Option.bind_some, f.clean_iff v]
      simp
  | optional key f =>
    cases given with
    | none => simp [Clean, HoldsNull, readGiven?, isRequired, Sound]
    | some v =>
      by_cases hkind : v.kind = .null
      · cases v <;> cases hkind
        simp [Clean, HoldsNull, isRequired, shape, f.clean_iff, f.read?_null]
      · have hne : v ≠ .null := fun h => hkind (congrArg Json.kind h)
        simp only [Clean, HoldsNull, readGiven?, isRequired, shape, Sound, Option.some.injEq,
          forall_eq', if_neg hkind, f.clean_iff v]
        simp [hne]

theorem clean_content_iff (field : Field r α) (a : α) :
    field.Clean (field.content a) ↔ field.Sound a ∧ field.Finite a := by
  cases field with
  | required key f => simp [Clean, content, isRequired, shape, Sound, Finite, f.clean_write_iff]
  | optional key f =>
    cases a <;> simp [Clean, content, isRequired, shape, Sound, Finite, f.clean_write_iff]

theorem readGiven?_content (field : Field r α) (a : α) (h : field.Finite a) :
    field.readGiven? (field.content a) = some a := by
  cases field with
  | required key f => exact f.read?_write a h
  | optional key f =>
    cases a with
    | none => rfl
    | some x =>
      have hread := f.read?_write x (h x rfl)
      show (if (f.write x).kind = .null then some none else (f.read? (f.write x)).map some) = _
      rw [if_neg (kind_ne_null hread), hread, Option.map_some]

theorem content_of_readGiven? (field : Field r α) (given : Option Json) (a : α)
    (hclean : field.Clean given) (h : field.readGiven? given = some a) :
    field.content a = given.map (r.normalForm field.shape.json) := by
  cases field with
  | required key f =>
    obtain ⟨v, rfl, hread⟩ := Option.bind_eq_some_iff.mp h
    exact congrArg some (f.write_of_read? v a (hclean.1 v rfl) hread)
  | optional key f =>
    cases given with
    | none =>
      cases h
      rfl
    | some v =>
      have hv : r.Clean f.shape.json v := hclean.1 v rfl
      obtain ⟨⟨x, hread, -⟩, -⟩ := (f.clean_iff v).mp hv
      simp only [readGiven?, if_neg (kind_ne_null hread), hread, Option.map_some,
        Option.some.injEq] at h
      subst h
      exact congrArg some (f.write_of_read? v x hv hread)

/-! ## Fields without bounds and numbers -/

/-- Every content of the field is sound, and its numbers are finite. -/
def Free (field : Field r α) : Prop :=
  ∀ a, field.Sound a ∧ field.Finite a

theorem Free.required {key : String} {f : Format r α} (h : f.Free) :
    (Field.required key f).Free :=
  h

theorem Free.optional {key : String} {f : Format r α} (h : f.Free) :
    (Field.optional key f).Free :=
  fun _ => ⟨fun x _ => (h x).1, fun x _ => (h x).2⟩

end Field

end ChartDoc
