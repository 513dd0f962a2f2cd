/-
  Parts of JSON values. The parts of an array are its items and the parts of an object the
  values of its members; the other values have none. A property of all values follows when it
  passes from the parts of every value to the value (`part_induction`).
-/
import ChartDoc.Json.Basic

namespace ChartDoc

namespace Json

/-- `IsPart w v`: the value `w` is a part of the value `v`. -/
inductive IsPart : Json → Json → Prop where
  | item {w : Json} {vs : List Json} (h : w ∈ vs) : IsPart w (array vs)
  | member {key : String} {w : Json} {members : Entries Json} (h : (key, w) ∈ members) :
    IsPart w (object members)

/-- The parts of a value in order. -/
def parts : Json → List Json
  | array items => items
  | object members => members.map Prod.snd
  | _ => []

theorem isPart_iff {w v : Json} : IsPart w v ↔ w ∈ v.parts := by
  constructor
  · intro h
    cases h with
    | item h => exact h
    | member h => exact List.mem_map.mpr ⟨_, h, rfl⟩
  · intro h
    cases v with
    | array items => exact .item h
    | object members =>
      obtain ⟨⟨key, v⟩, hmem, rfl⟩ := List.mem_map.mp h
      exact .member hmem
    | _ => cases h

/-- Induction on the parts of a value. -/
@[elab_as_elim]
theorem part_induction {motive : Json → Prop}
    (step : ∀ v, (∀ w, IsPart w v → motive w) → motive v) (v : Json) : motive v := by
  refine @Json.rec motive (fun items => ∀ w ∈ items, motive w)
    (fun members => ∀ m ∈ members, motive m.2) (fun m => motive m.2)
    ?_ ?_ ?_ ?_ ?_ ?_ ?_ ?_ ?_ ?_ ?_ v
  · exact step _ nofun
  · exact fun b => step _ nofun
  · exact fun n => step _ nofun
  · exact fun s => step _ nofun
  · intro items ih
    refine step _ fun w hw => ?_
    cases hw with
    | item h => exact ih w h
  · intro members ih
    refine step _ fun w hw => ?_
    cases hw with
    | member h => exact ih _ h
  · exact nofun
  · intro v items hv hitems w hw
    rcases List.mem_cons.mp hw with rfl | hw
    · exact hv
    · exact hitems w hw
  · exact nofun
  · intro m members hm hmembers n hn
    rcases List.mem_cons.mp hn with rfl | hn
    · exact hm
    · exact hmembers n hn
  · exact fun _ _ hv => hv

end Json

namespace Entries

variable {α : Type}

/-- What is found under a key is an entry. -/
theorem mem_of_lookup {key : String} {value : α} {entries : Entries α}
    (h : List.lookup key entries = some value) : (key, value) ∈ entries := by
  induction entries with
  | nil => simp at h
  | cons entry entries ih =>
    obtain ⟨k, v⟩ := entry
    rw [lookup_cons] at h
    split at h
    · rename_i hk
      rw [hk, Option.some.inj h]
      exact List.mem_cons_self
    · exact List.mem_cons_of_mem _ (ih h)

/-- With distinct keys every entry is found under its key. -/
theorem lookup_eq_some_iff {entries : Entries α} (hd : entries.Distinct) {key : String}
    {value : α} : List.lookup key entries = some value ↔ (key, value) ∈ entries := by
  refine ⟨mem_of_lookup, fun h => ?_⟩
  induction entries with
  | nil => cases h
  | cons entry entries ih =>
    obtain ⟨k, v⟩ := entry
    obtain ⟨hk, hd⟩ := List.nodup_cons.mp hd
    rw [lookup_cons]
    rcases List.mem_cons.mp h with hhead | htail
    · obtain ⟨rfl, rfl⟩ := Prod.mk.inj hhead
      exact if_pos rfl
    · have hne : key ≠ k := by
        rintro rfl
        exact hk (List.mem_map.mpr ⟨_, htail, rfl⟩)
      rw [if_neg hne]
      exact ih hd htail

/-- The order of entries with distinct keys does not matter. -/
theorem lookup_perm {es fs : Entries α} (distinct : es.Distinct) (perm : es.Perm fs)
    (key : String) : List.lookup key es = List.lookup key fs := by
  have distinct' : fs.Distinct := (perm.map Prod.fst).nodup_iff.mp distinct
  refine Option.ext fun value => ?_
  rw [lookup_eq_some_iff distinct, lookup_eq_some_iff distinct', perm.mem_iff]

/-- A value under a new key comes last. -/
theorem insert_of_notMem {key : String} {entries : Entries α}
    (h : key ∉ entries.keys) (value : α) :
    entries.insert key value = entries ++ [(key, value)] := by
  induction entries with
  | nil => rfl
  | cons entry entries ih =>
    obtain ⟨k, v⟩ := entry
    obtain ⟨hk, hrest⟩ := not_or.mp (fun hmem => h (List.mem_cons.mpr hmem))
    rw [insert, if_neg (Ne.symm hk), ih hrest]
    rfl

end Entries

end ChartDoc
