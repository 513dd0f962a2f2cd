/-
  Equality of JSON values, and encodings that carry it. Two objects are equal when they give
  equal values, or none, under every key; so the comparison of two records comes down to their
  members, one by one (`Rows.same_record`), and an absent member differs from every present one.

  An encoding is faithful (`Faithful`) when what is written for two contents is equal exactly
  when the contents are. That is more than being injective: equality of floating point numbers
  takes the two zeros for one, and so does equality of what is written for them. NaN and the
  infinities are all written as null, so numbers are written faithfully only if they are finite.
-/
import ChartDoc.Json.Record
import ChartDoc.Proofs.Json.Parts
import ChartDoc.Proofs.Validation.Path
import ChartDoc.Vocabulary
import Mathlib.Data.List.Perm.Subperm

namespace ChartDoc

namespace Entries

theorem lookup_eq_none_iff {α : Type} {key : String} {entries : Entries α} :
    List.lookup key entries = none ↔ key ∉ entries.keys := by
  rw [← Option.not_isSome_iff_eq_none, lookup_isSome_iff]

end Entries

namespace Json

/-! ## Objects -/

theorem sameMembers_iff {xs ys : Entries Json} :
    sameMembers xs ys = true ↔
      ∀ key x, (key, x) ∈ xs → ∃ y, List.lookup key ys = some y ∧ x.same y = true := by
  induction xs with
  | nil => simp [sameMembers]
  | cons entry xs ih =>
    obtain ⟨k, v⟩ := entry
    have hcons : sameMembers ((k, v) :: xs) ys = true ↔
        (∃ y, List.lookup k ys = some y ∧ v.same y = true) ∧ sameMembers xs ys = true := by
      rw [sameMembers, Bool.and_eq_true]
      cases List.lookup k ys <;> simp
    rw [hcons, ih]
    constructor
    · intro ⟨hfirst, hrest⟩ key x hmem
      rcases List.mem_cons.mp hmem with heq | hmem
      · obtain ⟨rfl, rfl⟩ := Prod.mk.inj heq
        exact hfirst
      · exact hrest key x hmem
    · intro h
      exact ⟨h k v List.mem_cons_self, fun key x hmem => h key x (List.mem_cons_of_mem _ hmem)⟩

/-- An object with an equal value under each key of another, and no more members, has the same
    keys. -/
theorem keys_perm_of_sameMembers {xs ys : Entries Json} (hx : xs.Distinct)
    (hlength : xs.length = ys.length) (hsame : sameMembers xs ys = true) :
    xs.keys.Perm ys.keys := by
  have hsubset : xs.keys ⊆ ys.keys := by
    intro key hkey
    obtain ⟨⟨_, x⟩, hmem, rfl⟩ := List.mem_map.mp hkey
    obtain ⟨y, hlookup, -⟩ := sameMembers_iff.mp hsame _ x hmem
    exact (Entries.lookup_isSome_iff _ ys).mp (by rw [hlookup]; rfl)
  have hcount : ys.keys.length ≤ xs.keys.length := by
    rw [Entries.keys, Entries.keys, List.length_map, List.length_map]
    exact Nat.le_of_eq hlength.symm
  exact (List.subperm_of_subset hx hsubset).perm_of_length_le hcount

/-- Two objects are equal when they give equal values, or none, under every key. -/
theorem same_object_iff {xs ys : Entries Json} (hx : xs.Distinct) (hy : ys.Distinct) :
    (object xs).same (object ys) = true ↔
      ∀ key, Option.Rel (fun x y => x.same y = true) (List.lookup key xs)
        (List.lookup key ys) := by
  show (xs.length == ys.length && sameMembers xs ys) = true ↔ _
  rw [Bool.and_eq_true, beq_iff_eq]
  constructor
  · intro ⟨hlength, hsame⟩ key
    have hkeys := keys_perm_of_sameMembers hx hlength hsame
    cases hfind : List.lookup key xs with
    | some x =>
      have hmem := Entries.mem_of_lookup hfind
      obtain ⟨y, hlookup, hxy⟩ := sameMembers_iff.mp hsame key x hmem
      rw [hlookup]
      exact .some hxy
    | none =>
      rw [Entries.lookup_eq_none_iff, hkeys.mem_iff, ← Entries.lookup_eq_none_iff] at hfind
      rw [hfind]
      exact .none
  · intro hrel
    have hkeys : xs.keys.Perm ys.keys := by
      rw [List.perm_ext_iff_of_nodup hx hy]
      intro key
      have hkey := hrel key
      rw [← Entries.lookup_isSome_iff, ← Entries.lookup_isSome_iff]
      generalize List.lookup key xs = first at hkey ⊢
      generalize List.lookup key ys = second at hkey ⊢
      cases hkey <;> simp
    have hlength : xs.length = ys.length := by
      simpa only [Entries.keys, List.length_map] using hkeys.length_eq
    refine ⟨hlength, sameMembers_iff.mpr ?_⟩
    intro key x hmem
    have hkey := hrel key
    rw [(Entries.lookup_eq_some_iff hx).mpr hmem] at hkey
    generalize List.lookup key ys = found at hkey ⊢
    cases hkey with
    | some hxy => exact ⟨_, rfl, hxy⟩

/-! ## Faithful encodings -/

variable {α : Type}

/-- What is written for two contents of the given kind is equal exactly when the contents
    are. -/
def Faithful [BEq α] (Fine : α → Prop) (encode : α → Json) : Prop :=
  ∀ a b, Fine a → Fine b → (encode a).same (encode b) = (a == b)

theorem faithful_string : Faithful (fun _ => True) string :=
  fun _ _ _ _ => rfl

theorem faithful_bool : Faithful (fun _ => True) bool :=
  fun _ _ _ _ => rfl

theorem faithful_vocabulary [Vocabulary α] [DecidableEq α] :
    Faithful (fun _ => True) (Vocabulary.json : α → Json) := by
  intro a b _ _
  show (Vocabulary.word a == Vocabulary.word b) = (a == b)
  rw [Bool.eq_iff_iff, beq_iff_eq, beq_iff_eq]
  exact ⟨Vocabulary.word_injective a b, fun h => h ▸ rfl⟩

theorem faithful_ofBinary64 : Faithful (fun x => x.isFinite = true) ofBinary64 := by
  intro x y hx hy
  obtain ⟨x, rfl⟩ := Binary64.isFinite_iff.mp hx
  obtain ⟨y, rfl⟩ := Binary64.isFinite_iff.mp hy
  rfl

theorem faithful_ofNat : Faithful (fun _ => True) ofNat := by
  intro m n _ _
  unfold ofNat
  rw [Bool.eq_iff_iff, beq_iff_eq]
  by_cases hm : Fits m <;> by_cases hn : Fits n
  · rw [dif_pos hm, dif_pos hn]
    show ((m : Int) == n) = true ↔ _
    rw [beq_iff_eq, Int.natCast_inj]
  · rw [dif_pos hm, dif_neg hn]
    exact ⟨nofun, fun h => absurd (h ▸ hm) hn⟩
  · rw [dif_neg hm, dif_pos hn]
    exact ⟨nofun, fun h => absurd (h ▸ hn) hm⟩
  · rw [dif_neg hm, dif_neg hn]
    show (naturalText m == naturalText n) = true ↔ _
    rw [beq_iff_eq]
    exact ⟨fun h => Location.naturalText_injective (congrArg String.toList h), fun h => h ▸ rfl⟩

section

variable [BEq α] {Fine : α → Prop} {encode : α → Json}

theorem Faithful.list (h : Faithful Fine encode) :
    Faithful (fun xs => ∀ x ∈ xs, Fine x) (list encode) := by
  intro xs ys hxs hys
  show sameItems (xs.map encode) (ys.map encode) = (xs == ys)
  induction xs generalizing ys with
  | nil => cases ys <;> rfl
  | cons x xs ih =>
    cases ys with
    | nil => rfl
    | cons y ys =>
      obtain ⟨hx, hxs⟩ := List.forall_mem_cons.mp hxs
      obtain ⟨hy, hys⟩ := List.forall_mem_cons.mp hys
      show ((encode x).same (encode y) && sameItems (xs.map encode) (ys.map encode)) = _
      rw [h x y hx hy, ih ys hxs hys, List.cons_beq_cons]

end

theorem faithful_ofStrings : Faithful (fun _ => True) ofStrings :=
  fun a b _ _ => faithful_string.list a b (fun _ _ => trivial) (fun _ _ => trivial)

/-! ## Records -/

/-- A member that is written when there is content. -/
def member (key : String) (content : Option Json) : Option (String × Json) :=
  content.map fun v => (key, v)

/-- `Rows keys ms ns result`: the members `ms` and `ns` of two records have their contents under
    the same keys, in order, and the result is whether all the contents are equal. -/
inductive Rows : List String → List (Option (String × Json)) → List (Option (String × Json)) →
    Bool → Prop where
  | nil : Rows [] [] [] true
  | cons {key : String} {c d : Option Json} {equal result : Bool} {keys : List String}
    {ms ns : List (Option (String × Json))}
    (h : equal = true ↔ Option.Rel (fun x y => x.same y = true) c d)
    (rest : Rows keys ms ns result) :
    Rows (key :: keys) (member key c :: ms) (member key d :: ns) (equal && result)

/-- The members that are written, by key: a member that is not written is found under no key. -/
theorem lookup_member {key : String} {ms : List (Option (String × Json))}
    (hfresh : key ∉ Entries.keys (ms.filterMap id)) (content : Option Json) (other : String) :
    List.lookup other ((member key content :: ms).filterMap id) =
      if other = key then content else List.lookup other (ms.filterMap id) := by
  cases content with
  | some v => exact Entries.lookup_cons key v (ms.filterMap id) other
  | none =>
    show List.lookup other (ms.filterMap id) = _
    split
    · rename_i heq
      rw [heq, Entries.lookup_eq_none_iff.mpr hfresh]
    · rfl

theorem keys_member_sublist {key : String} {keys : List String}
    {ms : List (Option (String × Json))} (h : (Entries.keys (ms.filterMap id)).Sublist keys)
    (content : Option Json) :
    (Entries.keys ((member key content :: ms).filterMap id)).Sublist (key :: keys) := by
  cases content with
  | none => exact h.cons key
  | some v => exact h.cons_cons key

namespace Rows

variable [BEq α] {Fine : α → Prop} {encode : α → Json} {key : String} {keys : List String}
  {ms ns : List (Option (String × Json))} {result : Bool}

theorem always (h : Faithful Fine encode) {a b : α} (ha : Fine a) (hb : Fine b)
    (rest : Rows keys ms ns result) :
    Rows (key :: keys) (Json.always key (encode a) :: ms) (Json.always key (encode b) :: ns)
      (a == b && result) := by
  refine .cons (c := some _) (d := some _) ?_ rest
  rw [Option.rel_some_some, h a b ha hb]

theorem whenSome (h : Faithful Fine encode) {a b : Option α} (ha : ∀ x, a = some x → Fine x)
    (hb : ∀ x, b = some x → Fine x) (rest : Rows keys ms ns result) :
    Rows (key :: keys) (Json.whenSome key encode a :: ms) (Json.whenSome key encode b :: ns)
      (a == b && result) := by
  cases a with
  | none =>
    cases b with
    | none => exact .cons (c := none) (d := none) (by simp) rest
    | some b => exact .cons (c := none) (d := some _) (by simp) rest
  | some a =>
    cases b with
    | none => exact .cons (c := some _) (d := none) (by simp) rest
    | some b =>
      refine .cons (c := some _) (d := some _) ?_ rest
      rw [Option.rel_some_some, h a b (ha a rfl) (hb b rfl), Option.some_beq_some]

/-- A member that is always written, whatever its content is. -/
theorem always_any (h : Faithful (fun _ => True) encode) {a b : α}
    (rest : Rows keys ms ns result) :
    Rows (key :: keys) (Json.always key (encode a) :: ms) (Json.always key (encode b) :: ns)
      (a == b && result) :=
  always h trivial trivial rest

/-- A member that may be absent, whatever its content is. -/
theorem whenSome_any (h : Faithful (fun _ => True) encode) {a b : Option α}
    (rest : Rows keys ms ns result) :
    Rows (key :: keys) (Json.whenSome key encode a :: ms) (Json.whenSome key encode b :: ns)
      (a == b && result) :=
  whenSome h (fun _ _ => trivial) (fun _ _ => trivial) rest

/-- Only the keys of the row are written. -/
theorem keys_sublist (h : Rows keys ms ns result) :
    (Entries.keys (ms.filterMap id)).Sublist keys ∧
      (Entries.keys (ns.filterMap id)).Sublist keys := by
  induction h with
  | nil => exact ⟨.refl _, .refl _⟩
  | cons _ _ ih => exact ⟨keys_member_sublist ih.1 _, keys_member_sublist ih.2 _⟩

theorem result_iff (h : Rows keys ms ns result) (hkeys : keys.Nodup) :
    result = true ↔ ∀ key, Option.Rel (fun x y => x.same y = true)
      (List.lookup key (ms.filterMap id)) (List.lookup key (ns.filterMap id)) := by
  induction h with
  | nil => simp
  | @cons key c d equal result keys ms ns hequal rest ih =>
    obtain ⟨hfresh, hkeys⟩ := List.nodup_cons.mp hkeys
    have hms : key ∉ Entries.keys (ms.filterMap id) :=
      fun hmem => hfresh (rest.keys_sublist.1.subset hmem)
    have hns : key ∉ Entries.keys (ns.filterMap id) :=
      fun hmem => hfresh (rest.keys_sublist.2.subset hmem)
    simp only [lookup_member hms, lookup_member hns]
    rw [Bool.and_eq_true, hequal, ih hkeys]
    constructor
    · rintro ⟨hhead, hrest⟩ other
      split
      · exact hhead
      · exact hrest other
    · intro h
      refine ⟨by simpa using h key, fun other => ?_⟩
      by_cases hother : other = key
      · -- The rest of the row has nothing under the key of its head.
        rw [hother, Entries.lookup_eq_none_iff.mpr hms, Entries.lookup_eq_none_iff.mpr hns]
        exact .none
      · simpa only [if_neg hother] using h other

/-- Two records are equal when their members are, one by one. -/
theorem same_record {equal : Bool} (h : Rows keys ms ns result) (hkeys : keys.Nodup)
    (hresult : result = equal) : (record ms).same (record ns) = equal := by
  obtain ⟨hms, hns⟩ := h.keys_sublist
  rw [← hresult, Bool.eq_iff_iff, h.result_iff hkeys]
  exact same_object_iff (hms.nodup hkeys) (hns.nodup hkeys)

end Rows

end Json

end ChartDoc
