/-
  Places in JSON values. A location leads from a value to what stands there (`At`). Two values
  agree but at some locations (`AgreeBut`) when they have the same shape down to these locations
  and the same content everywhere else: what stands at an excepted location may be replaced by
  any other value, but it can be neither added nor taken away, and nothing beside it changes.

  Null stands nowhere in what is written of texts, truth values, counts and finite numbers, so it
  stands nowhere in records and lists of them either (`NullFree`).
-/
import ChartDoc.Json.Record
import ChartDoc.Validation.Issue
import ChartDoc.Vocabulary
import Mathlib.Data.List.Basic

namespace ChartDoc

namespace Json

/-- `At v location w`: the value `w` stands at a location in the value `v`. -/
inductive At : Json → Location → Json → Prop where
  | here (v : Json) : At v [] v
  | item {vs : List Json} {position : Nat} {v w : Json} {location : Location}
    (given : vs[position]? = some v) (rest : At v location w) :
    At (array vs) (.index position :: location) w
  | member {members : Entries Json} {name : String} {v w : Json} {location : Location}
    (given : (name, v) ∈ members) (rest : At v location w) :
    At (object members) (.key name :: location) w

/-- `AgreeBut excepted v w`: the two values agree, but where the excepted locations lead. -/
inductive AgreeBut : (Location → Prop) → Json → Json → Prop where
  | refl {excepted : Location → Prop} (v : Json) : AgreeBut excepted v v
  | here {excepted : Location → Prop} {v w : Json} (h : excepted []) : AgreeBut excepted v w
  | array {excepted : Location → Prop} {vs ws : List Json} (length : vs.length = ws.length)
    (items : ∀ (i : Nat) (v w : Json), vs[i]? = some v → ws[i]? = some w →
      AgreeBut (fun location => excepted (.index i :: location)) v w) :
    AgreeBut excepted (array vs) (array ws)
  | object {excepted : Location → Prop} {ms ns : Entries Json} (keys : ms.keys = ns.keys)
    (members : ∀ (i : Nat) (name name' : String) (v w : Json), ms[i]? = some (name, v) →
      ns[i]? = some (name', w) →
      AgreeBut (fun location => excepted (.key name :: location)) v w) :
    AgreeBut excepted (object ms) (object ns)

variable {α : Type} {excepted : Location → Prop}

/-! ## Records and lists -/

theorem filterMap_member {key : String} {v : Json} (ms ns : List (Option (String × Json))) :
    (ms ++ always key v :: ns).filterMap id = ms.filterMap id ++ (key, v) :: ns.filterMap id := by
  rw [List.filterMap_append]
  rfl

theorem At.record {key : String} {v w : Json} {location : Location}
    (ms ns : List (Option (String × Json))) (h : At v location w) :
    At (record (ms ++ always key v :: ns)) (.key key :: location) w := by
  refine .member ?_ h
  rw [filterMap_member]
  exact List.mem_append_right _ List.mem_cons_self

theorem At.list {encode : α → Json} {xs : List α} {i : Nat} {x : α} {w : Json}
    {location : Location} (given : xs[i]? = some x) (h : At (encode x) location w) :
    At (list encode xs) (.index i :: location) w :=
  .item (by rw [List.getElem?_map, given, Option.map_some]) h

/-- Two records agree when they have one member with other contents, and these agree. -/
theorem AgreeBut.record {key : String} {v w : Json} (ms ns : List (Option (String × Json)))
    (h : AgreeBut (fun location => excepted (.key key :: location)) v w) :
    AgreeBut excepted (record (ms ++ always key v :: ns)) (record (ms ++ always key w :: ns)) := by
  rw [Json.record, Json.record, filterMap_member, filterMap_member]
  generalize ms.filterMap id = before
  generalize ns.filterMap id = after
  refine .object (by simp [Entries.keys]) fun i name name' x y hx hy => ?_
  rcases Nat.lt_trichotomy i before.length with hi | rfl | hi
  · rw [List.getElem?_append_left hi] at hx hy
    rw [hx] at hy
    cases hy
    exact .refl x
  · rw [List.getElem?_append_right (Nat.le_refl _), Nat.sub_self] at hx hy
    cases hx
    cases hy
    exact h
  · obtain ⟨j, rfl⟩ := Nat.exists_eq_add_of_lt hi
    have hposition : before.length + j + 1 - before.length = j + 1 := by omega
    rw [List.getElem?_append_right (Nat.le_of_lt hi), hposition, List.getElem?_cons_succ] at hx hy
    rw [hx] at hy
    cases hy
    exact .refl x

/-- Two lists agree when the items at each position do. -/
theorem AgreeBut.list {encode encode' : α → Json} {xs : List α}
    (h : ∀ (i : Nat) (x : α), xs[i]? = some x →
      AgreeBut (fun location => excepted (.index i :: location)) (encode x) (encode' x)) :
    AgreeBut excepted (list encode xs) (list encode' xs) := by
  refine .array (by simp) fun i v w hv hw => ?_
  rw [List.getElem?_map, Option.map_eq_some_iff] at hv hw
  obtain ⟨x, hx, rfl⟩ := hv
  obtain ⟨y, hy, rfl⟩ := hw
  rw [hx] at hy
  cases hy
  exact h i x hx

/-! ## Nulls -/

/-- Null stands nowhere in a value. -/
def NullFree (v : Json) : Prop :=
  ∀ location, ¬At v location null

/-- A member of a record is not written, or null stands nowhere in it. -/
def MemberNullFree (m : Option (String × Json)) : Prop :=
  ∀ key v, m = some (key, v) → v.NullFree

theorem nullFree_string (s : String) : (string s).NullFree :=
  nofun

theorem nullFree_bool (b : Bool) : (bool b).NullFree :=
  nofun

theorem nullFree_vocabulary [Vocabulary α] (a : α) : (Vocabulary.json a).NullFree :=
  nullFree_string _

theorem nullFree_ofNat (n : Nat) : (ofNat n).NullFree := by
  unfold ofNat
  split
  · intro location hnull
    cases hnull
  · exact nullFree_string _

/-- Only a number that is not finite is written as null. -/
theorem nullFree_ofBinary64 {x : Binary64} (h : x.isFinite = true) : (ofBinary64 x).NullFree := by
  cases x with
  | finite x => exact nofun
  | _ => cases h

theorem at_list_null_iff {encode : α → Json} {xs : List α} {location : Location} :
    At (list encode xs) location null ↔ ∃ i x rest, location = .index i :: rest ∧
      xs[i]? = some x ∧ At (encode x) rest null := by
  constructor
  · intro h
    cases h with
    | item given rest =>
      rw [List.getElem?_map] at given
      obtain ⟨x, hx, rfl⟩ := Option.map_eq_some_iff.mp given
      exact ⟨_, x, _, rfl, hx, rest⟩
  · rintro ⟨i, x, rest, rfl, hx, h⟩
    exact .list hx h

theorem NullFree.list {encode : α → Json} {xs : List α} (h : ∀ x ∈ xs, (encode x).NullFree) :
    (list encode xs).NullFree := by
  intro location hnull
  obtain ⟨i, x, rest, -, hx, hrest⟩ := at_list_null_iff.mp hnull
  exact h x (List.mem_of_getElem? hx) rest hrest

theorem nullFree_ofStrings (texts : List String) : (ofStrings texts).NullFree :=
  NullFree.list fun s _ => nullFree_string s

theorem MemberNullFree.always {key : String} {v : Json} (h : v.NullFree) :
    MemberNullFree (Json.always key v) := by
  rintro key' w ⟨⟩
  exact h

theorem MemberNullFree.whenSome {key : String} {encode : α → Json} {content : Option α}
    (h : ∀ a, content = some a → (encode a).NullFree) :
    MemberNullFree (Json.whenSome key encode content) := by
  intro key' w hmember
  obtain ⟨a, ha, hw⟩ := Option.map_eq_some_iff.mp hmember
  cases hw
  exact h a ha

/-- A member that may be absent, whatever its content is. -/
theorem MemberNullFree.whenSome_any {key : String} {encode : α → Json} {content : Option α}
    (h : ∀ a, (encode a).NullFree) : MemberNullFree (Json.whenSome key encode content) :=
  whenSome fun a _ => h a

theorem mem_members_iff {ms : List (Option (String × Json))} {key : String} {v : Json} :
    (key, v) ∈ ms.filterMap id ↔ some (key, v) ∈ ms := by
  rw [List.mem_filterMap]
  simp

/-- When a record has one member that may hold nulls, its nulls are those of this member. -/
theorem at_record_null_iff {m : Option (String × Json)} (ms ns : List (Option (String × Json)))
    (hms : ms.Forall MemberNullFree) (hns : ns.Forall MemberNullFree) {location : Location} :
    At (record (ms ++ m :: ns)) location null ↔ ∃ key v rest, location = .key key :: rest ∧
      m = some (key, v) ∧ At v rest null := by
  rw [List.forall_iff_forall_mem] at hms hns
  constructor
  · intro h
    cases h with
    | member given rest =>
      rcases List.mem_append.mp (mem_members_iff.mp given) with hmem | hmem
      · exact absurd rest (hms _ hmem _ _ rfl _)
      · rcases List.mem_cons.mp hmem with hm | hmem
        · exact ⟨_, _, _, rfl, hm.symm, rest⟩
        · exact absurd rest (hns _ hmem _ _ rfl _)
  · rintro ⟨key, v, rest, rfl, rfl, h⟩
    exact .record ms ns h

theorem NullFree.record {ms : List (Option (String × Json))} (h : ms.Forall MemberNullFree) :
    (record ms).NullFree := by
  intro location hnull
  rw [List.forall_iff_forall_mem] at h
  cases hnull with
  | member given rest => exact h _ (mem_members_iff.mp given) _ _ rfl _ rest

end Json

end ChartDoc
