/-
  What the walk finds in a value itself. For a schema with a form, the demand that the walk
  reads off is the demand of the form (`ofSchema_eq_demand`); the faults that it then finds in
  the value are exactly the ways in which the value breaks the form (`mem_ownFaults_iff`), and
  there is one at most when the form is sound (`length_ownFaults_le`).
-/
import ChartDoc.Proofs.Schema.Form
import ChartDoc.Proofs.Walk.Equations
import Mathlib.Data.Option.Basic

namespace ChartDoc

open Schema

/-- What a form asks of a value. -/
def Schema.Form.demand : Form → Demand
  | .string words => .string words
  | .number minimum maximum =>
    .number (minimum.map Json.Number.toBinary64) (maximum.map Json.Number.toBinary64)
  | .boolean => .boolean
  | .array item least => .array least (some item)
  | .object properties required => .object properties required

theorem strings?_of_get? {s : Json} {key : String} {words : Option (List String)}
    (h : s.get? key = words.map .ofStrings) : Demand.strings? s key = words := by
  have hread : ∀ word, (Json.string word).string? = some word := fun _ => rfl
  cases words with
  | none => simp [Demand.strings?, h]
  | some words =>
    simp [Demand.strings?, h, Json.ofStrings, Json.items?, List.filterMap_map, hread]

/-- The demand that is read off a schema with a form is the demand of the form. -/
theorem ofSchema_eq_demand {s : Json} {form : Form} (h : HasForm s form) :
    Demand.ofSchema s = form.demand := by
  obtain ⟨htype, hkeys⟩ := h
  unfold Demand.ofSchema
  rw [htype]
  cases form with
  | string words =>
    have hwords : Demand.strings? s "enum" = words := strings?_of_get? hkeys
    simp [Form.kind, Json.Kind.word, Json.string?, Form.demand, hwords]
  | number minimum maximum =>
    obtain ⟨hmin, hmax⟩ := hkeys
    cases minimum <;> cases maximum <;>
      simp [Form.kind, Json.Kind.word, Json.string?, Form.demand, hmin, hmax, Json.binary64?]
  | boolean => simp [Form.kind, Json.Kind.word, Json.string?, Form.demand]
  | array item least =>
    obtain ⟨hitem, hleast, hfits⟩ := hkeys
    cases least with
    | none => simp [Form.kind, Json.Kind.word, Json.string?, Form.demand, hitem, hleast]
    | some n =>
      have hn : Json.Fits n := hfits n rfl
      simp [Form.kind, Json.Kind.word, Json.string?, Form.demand, hitem, hleast, Json.ofNat, hn,
        Json.nat?]
  | object properties required =>
    obtain ⟨hprop, hreq⟩ := hkeys
    have hnames : (Demand.strings? s "required").getD [] = required := by
      rcases hreq with hreq | ⟨hreq, rfl⟩
      · rw [@strings?_of_get? s "required" (some required) hreq, Option.getD_some]
      · rw [@strings?_of_get? s "required" none hreq, Option.getD_none]
    simp [Form.kind, Json.Kind.word, Json.string?, Form.demand, hprop, hnames, Json.members?]

/-- A schema has one form at most. -/
theorem Schema.HasForm.unique {s : Json} {form form' : Form} (h : HasForm s form)
    (h' : HasForm s form') : form = form' := by
  have hd : form.demand = form'.demand := (ofSchema_eq_demand h).symm.trans (ofSchema_eq_demand h')
  cases form with
  | number minimum maximum =>
    cases form' with
    | number minimum' maximum' =>
      obtain ⟨hmin, hmax⟩ := h.2
      obtain ⟨hmin', hmax'⟩ := h'.2
      have hinj : Function.Injective (Option.map Json.number) :=
        Option.map_injective fun _ _ => Json.number.inj
      rw [hinj (hmin.symm.trans hmin'), hinj (hmax.symm.trans hmax')]
    | _ => cases hd
  | _ =>
    cases form' <;> cases hd
    rfl

theorem ownFaults_of_kind_ne {form : Form} {v : Json} (h : v.kind ≠ form.kind) :
    form.demand.ownFaults v = [.wrongType v.kind form.kind.word] := by
  cases form <;> cases v <;> first | rfl | exact absurd rfl h

theorem mem_wordFaults_iff {allowed : Option (List String)} {text : String} {fault : Fault} :
    fault ∈ Demand.wordFaults allowed text ↔
      ∃ words, allowed = some words ∧ text ∉ words ∧ fault = .unknownWord text words := by
  cases allowed <;> simp [Demand.wordFaults]

theorem mem_lengthFaults_iff {least : Option Nat} {length : Nat} {fault : Fault} :
    fault ∈ Demand.lengthFaults least length ↔
      ∃ n, least = some n ∧ length < n ∧ fault = .tooFewItems n := by
  cases least <;> simp [Demand.lengthFaults]

theorem mem_boundFaults_iff {minimum maximum : Option Binary64} {x : Binary64} {fault : Fault} :
    fault ∈ Demand.boundFaults minimum maximum x ↔
      (∃ m, minimum = some m ∧ x < m ∧ fault = .belowMinimum m x) ∨
        ∃ m, maximum = some m ∧ m < x ∧ fault = .aboveMaximum m x := by
  cases minimum <;> cases maximum <;> simp [Demand.boundFaults]

/-- The faults that the walk finds in a value itself are the ways in which it breaks the form. -/
theorem mem_ownFaults_iff {form : Form} {v : Json} {fault : Fault} :
    fault ∈ form.demand.ownFaults v ↔ OwnFault form v fault := by
  constructor
  · intro h
    by_cases hkind : v.kind = form.kind
    · cases form with
      | string words =>
        cases v <;> cases hkind
        obtain ⟨words, rfl, hunknown, rfl⟩ := mem_wordFaults_iff.mp h
        exact .unknownWord hunknown
      | number minimum maximum =>
        cases v <;> cases hkind
        rcases mem_boundFaults_iff.mp h with ⟨_, hm, hbelow, rfl⟩ | ⟨_, hm, habove, rfl⟩
        · obtain ⟨m, rfl, rfl⟩ := Option.map_eq_some_iff.mp hm
          exact .belowMinimum hbelow
        · obtain ⟨m, rfl, rfl⟩ := Option.map_eq_some_iff.mp hm
          exact .aboveMaximum habove
      | boolean =>
        cases v <;> cases hkind
        cases h
      | array item least =>
        cases v <;> cases hkind
        obtain ⟨n, rfl, hfew, rfl⟩ := mem_lengthFaults_iff.mp h
        exact .tooFewItems hfew
      | object properties required =>
        cases v <;> cases hkind
        cases h
    · rw [ownFaults_of_kind_ne hkind, List.mem_singleton] at h
      rw [h]
      exact .wrongType hkind
  · intro h
    cases h with
    | wrongType wrong =>
      rw [ownFaults_of_kind_ne wrong]
      exact List.mem_singleton_self _
    | unknownWord unknown => exact mem_wordFaults_iff.mpr ⟨_, rfl, unknown, rfl⟩
    | belowMinimum below => exact mem_boundFaults_iff.mpr (.inl ⟨_, rfl, below, rfl⟩)
    | aboveMaximum above => exact mem_boundFaults_iff.mpr (.inr ⟨_, rfl, above, rfl⟩)
    | tooFewItems few => exact mem_lengthFaults_iff.mpr ⟨_, rfl, few, rfl⟩

/-- Nothing is below the lesser and above the greater of two bounds. -/
theorem not_lt_and_lt_of_le {a b x : Binary64} (h : a ≤ b) : ¬(x < a ∧ b < x) := by
  rintro ⟨hxa, hbx⟩
  obtain ⟨p, q, hp, hq, hpq⟩ := Binary64.le_iff.mp h
  obtain ⟨y, p', hy, hp', hyp⟩ := Binary64.lt_iff.mp hxa
  obtain ⟨q', y', hq', hy', hqy⟩ := Binary64.lt_iff.mp hbx
  rw [hp] at hp'
  rw [hq] at hq'
  rw [hy] at hy'
  cases hp'
  cases hq'
  cases hy'
  omega

theorem length_wordFaults_le (allowed : Option (List String)) (text : String) :
    (Demand.wordFaults allowed text).length ≤ 1 := by
  unfold Demand.wordFaults
  split
  · split <;> simp
  · simp

theorem length_lengthFaults_le (least : Option Nat) (length : Nat) :
    (Demand.lengthFaults least length).length ≤ 1 := by
  unfold Demand.lengthFaults
  split
  · split <;> simp
  · simp

theorem length_boundFaults_le {minimum maximum : Option Binary64} {x : Binary64}
    (h : ∀ a b, minimum = some a → maximum = some b → a ≤ b) :
    (Demand.boundFaults minimum maximum x).length ≤ 1 := by
  unfold Demand.boundFaults
  cases minimum with
  | none =>
    cases maximum with
    | none => simp
    | some b =>
      simp only []
      split <;> simp
  | some a =>
    cases maximum with
    | none =>
      simp only []
      split <;> simp
    | some b =>
      have hnot := not_lt_and_lt_of_le (x := x) (h a b rfl rfl)
      simp only []
      split
      · rename_i hbelow
        rw [if_neg fun habove => hnot ⟨hbelow, habove⟩]
        simp
      · split <;> simp

/-- A value breaks a sound form in one way at most. -/
theorem length_ownFaults_le {form : Form} (hs : form.Sound) (v : Json) :
    (form.demand.ownFaults v).length ≤ 1 := by
  by_cases hkind : v.kind = form.kind
  · cases form with
    | string words =>
      cases v <;> cases hkind
      exact length_wordFaults_le words _
    | number minimum maximum =>
      cases v <;> cases hkind
      refine length_boundFaults_le fun a b ha hb => ?_
      obtain ⟨m, rfl, rfl⟩ := Option.map_eq_some_iff.mp ha
      obtain ⟨n, rfl, rfl⟩ := Option.map_eq_some_iff.mp hb
      exact hs
    | boolean =>
      cases v <;> cases hkind
      exact Nat.zero_le _
    | array item least =>
      cases v <;> cases hkind
      exact length_lengthFaults_le least _
    | object properties required =>
      cases v <;> cases hkind
      exact Nat.zero_le _
  · rw [ownFaults_of_kind_ne hkind]
    exact Nat.le_refl _

end ChartDoc
