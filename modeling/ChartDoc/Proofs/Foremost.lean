/-
  The foremost of the findings in nested lists. A finding has an address: the indices that lead
  to it, the outermost first. Addresses are ordered like words. So an address comes before the
  addresses inside of it, and everything inside an item comes before everything inside a later
  item. This is the order in which nested lists are gone through depth first.

  A search through the items of a list that stops at the first success finds what is foremost in
  the list, if what it finds in each item is foremost there (`FindsFirst.findSome?`). There is at
  most one such finding, as long as no two findings have the same address.
-/
import Mathlib.Data.List.Lex

namespace ChartDoc

/-- The indices that lead to a place in nested lists, the outermost first. -/
abbrev Address := List Nat

/-- `Foremost P a`: of all findings of `P`, the finding `a` has the first address. -/
def Foremost {α : Type} (P : Address → α → Prop) (a : α) : Prop :=
  ∃ address, P address a ∧ ∀ address' b, P address' b → ¬address' < address

/-- A search that ends with the foremost finding, or with nothing if there is no finding. -/
def FindsFirst {α : Type} (P : Address → α → Prop) : Option α → Prop
  | some a => Foremost P a
  | none => ∀ address a, ¬P address a

/-- The findings of `P` in the items of a list. -/
inductive InItems {α β : Type} (P : β → Address → α → Prop) (xs : List β) :
    Address → α → Prop where
  | item {i : Nat} {x : β} {address : Address} {a : α} (given : xs[i]? = some x)
    (h : P x address a) : InItems P xs (i :: address) a

variable {α β : Type} {P Q : Address → α → Prop} {found : Option α} {a b : α}

theorem Foremost.eq (functional : ∀ address a b, P address a → P address b → a = b)
    (ha : Foremost P a) (hb : Foremost P b) : a = b := by
  obtain ⟨address, hfound, hfirst⟩ := ha
  obtain ⟨address', hfound', hfirst'⟩ := hb
  rcases lt_trichotomy address address' with hlt | rfl | hlt
  · exact absurd hlt (hfirst' address a hfound)
  · exact functional address a b hfound hfound'
  · exact absurd hlt (hfirst address' b hfound')

namespace FindsFirst

theorem eq_some_iff (functional : ∀ address a b, P address a → P address b → a = b)
    (h : FindsFirst P found) : found = some a ↔ Foremost P a := by
  constructor
  · rintro rfl
    exact h
  · intro ha
    cases found with
    | none =>
      obtain ⟨address, hfound, -⟩ := ha
      exact absurd hfound (h address a)
    | some b => rw [Foremost.eq functional h ha]

theorem congr (hPQ : ∀ address a, P address a ↔ Q address a) (h : FindsFirst P found) :
    FindsFirst Q found := by
  have heq : P = Q := funext fun address => funext fun a => propext (hPQ address a)
  rwa [← heq]

/-- What is found at once has the empty address. -/
theorem here (found : Option α) :
    FindsFirst (fun address a => address = [] ∧ found = some a) found := by
  cases found with
  | none =>
    rintro address a ⟨-, h⟩
    cases h
  | some a =>
    refine ⟨[], ⟨rfl, rfl⟩, ?_⟩
    rintro address b -
    exact List.not_lt_nil address

/-- What is found at once comes before what is found further inside. -/
theorem or {own : Option α} (h : FindsFirst Q found) :
    FindsFirst (fun address a => (address = [] ∧ own = some a) ∨ Q address a) (own.or found) := by
  cases own with
  | none => exact h.congr fun address a => by simp
  | some a =>
    refine ⟨[], .inl ⟨rfl, rfl⟩, ?_⟩
    rintro address b -
    exact List.not_lt_nil address

theorem map (h : FindsFirst P found) (f : α → β) :
    FindsFirst (fun address b => ∃ a, P address a ∧ f a = b) (found.map f) := by
  cases found with
  | none =>
    rintro address b ⟨a, ha, -⟩
    exact h address a ha
  | some a =>
    obtain ⟨address, ha, hfirst⟩ := h
    refine ⟨address, ⟨a, ha, rfl⟩, ?_⟩
    rintro address' _ ⟨b, hb, -⟩
    exact hfirst address' b hb

/-- The first success in a list of searches. -/
theorem findSome? {P : β → Address → α → Prop} {f : β → Option α} {xs : List β}
    (h : ∀ x ∈ xs, FindsFirst (P x) (f x)) : FindsFirst (InItems P xs) (xs.findSome? f) := by
  cases hfound : xs.findSome? f with
  | none =>
    rintro _ a ⟨given, hx⟩
    have hmem := List.mem_of_getElem? given
    have hnone := h _ hmem
    rw [List.findSome?_eq_none_iff.mp hfound _ hmem] at hnone
    exact hnone _ a hx
  | some a =>
    obtain ⟨before, x, after, rfl, hx, hbefore⟩ := List.findSome?_eq_some_iff.mp hfound
    have hforemost := h x (List.mem_append_right _ List.mem_cons_self)
    rw [hx] at hforemost
    obtain ⟨address, ha, hfirst⟩ := hforemost
    refine ⟨before.length :: address, .item (by simp) ha, ?_⟩
    rintro _ b ⟨given, hb⟩ hlt
    rcases List.cons_lt_cons_iff.mp hlt with hi | ⟨rfl, hinside⟩
    · -- nothing is found in the items before
      rw [List.getElem?_append_left hi] at given
      have hmem := List.mem_of_getElem? given
      have hnone := h _ (List.mem_append_left _ hmem)
      rw [hbefore _ hmem] at hnone
      exact hnone _ b hb
    · rw [List.getElem?_append_right (Nat.le_refl _), Nat.sub_self] at given
      cases given
      exact hfirst _ b hb hinside

end FindsFirst

end ChartDoc
