/-
  Keyed entries in the order in which their keys were first inserted. A later insertion under
  the same key replaces the value and keeps the place. `List.lookup` reads an entry.
-/

namespace ChartDoc

/-- Values under text keys, in order. -/
abbrev Entries (α : Type) := List (String × α)

namespace Entries

variable {α : Type}

/-- The keys in order. -/
def keys (entries : Entries α) : List String :=
  entries.map Prod.fst

/-- The entries with a value put under a key: in place of the key's first entry, or at the end. -/
def insert (key : String) (value : α) : Entries α → Entries α
  | [] => [(key, value)]
  | (k, v) :: entries =>
    if k = key then (key, value) :: entries else (k, v) :: insert key value entries

/-- Puts a value under a key as `insert` does, and also gives the value that it replaces. -/
def put (key : String) (value : α) : Entries α → Option α × Entries α
  | [] => (none, [(key, value)])
  | (k, v) :: entries =>
    if k = key then (some v, (key, value) :: entries)
    else
      let (replaced, rest) := put key value entries
      (replaced, (k, v) :: rest)

/-- No key occurs twice. -/
def Distinct (entries : Entries α) : Prop :=
  entries.keys.Nodup

theorem lookup_cons (k : String) (v : α) (entries : Entries α) (key : String) :
    List.lookup key ((k, v) :: entries) = if key = k then some v else List.lookup key entries := by
  show (match key == k with
    | true => some v
    | false => List.lookup key entries) = _
  by_cases h : key = k
  · simp [h]
  · have hb : (key == k) = false := by simp [h]
    rw [hb, if_neg h]

/-- What was inserted is found. -/
theorem lookup_insert_self (key : String) (value : α) (entries : Entries α) :
    List.lookup key (insert key value entries) = some value := by
  induction entries with
  | nil => simp [insert]
  | cons entry entries ih =>
    obtain ⟨k, v⟩ := entry
    unfold insert
    split
    · simp
    · rename_i hk
      rw [lookup_cons, if_neg (fun h => hk h.symm), ih]

/-- An insertion changes no other key. -/
theorem lookup_insert_of_ne {key other : String} (h : other ≠ key) (value : α)
    (entries : Entries α) :
    List.lookup other (insert key value entries) = List.lookup other entries := by
  induction entries with
  | nil => simp [insert, lookup_cons, h]
  | cons entry entries ih =>
    obtain ⟨k, v⟩ := entry
    unfold insert
    split
    · rename_i hk
      subst hk
      simp [lookup_cons, h]
    · simp [lookup_cons, ih]

/-- An entry is found exactly under the keys that occur. -/
theorem lookup_isSome_iff (key : String) (entries : Entries α) :
    (List.lookup key entries).isSome = true ↔ key ∈ entries.keys := by
  induction entries with
  | nil => simp [keys]
  | cons entry entries ih =>
    obtain ⟨k, v⟩ := entry
    rw [lookup_cons]
    by_cases h : key = k
    · simp [h, keys]
    · simp only [h, if_false, ih]
      simp [keys, h]

/-- A key that occurs keeps its place, and a new one comes last. -/
theorem keys_insert (key : String) (value : α) (entries : Entries α) :
    (insert key value entries).keys =
      if key ∈ entries.keys then entries.keys else entries.keys ++ [key] := by
  induction entries with
  | nil => simp [insert, keys]
  | cons entry entries ih =>
    obtain ⟨k, v⟩ := entry
    unfold insert
    split
    · rename_i hk
      simp [keys, hk]
    · rename_i hk
      have hkey : key ≠ k := fun h => hk h.symm
      have hcons : ∀ es : Entries α, keys ((k, v) :: es) = k :: keys es := fun _ => rfl
      rw [hcons, hcons, ih]
      by_cases h : key ∈ keys entries
      · simp [h]
      · simp [h, hkey]

/-- The value that is replaced is the one that was found before. -/
theorem put_eq (key : String) (value : α) (entries : Entries α) :
    put key value entries = (List.lookup key entries, insert key value entries) := by
  induction entries with
  | nil => rfl
  | cons entry entries ih =>
    obtain ⟨k, v⟩ := entry
    unfold put insert
    rw [lookup_cons, ih]
    by_cases hk : k = key
    · simp [hk]
    · have hkey : key ≠ k := fun h => hk h.symm
      simp [hk, hkey]

/-- Insertion keeps the keys distinct. -/
theorem Distinct.insert {entries : Entries α} (h : entries.Distinct) (key : String) (value : α) :
    (entries.insert key value).Distinct := by
  unfold Distinct
  rw [keys_insert]
  split
  · exact h
  · rename_i hk
    rw [List.nodup_append]
    refine ⟨h, by simp, ?_⟩
    intro a ha b hb hab
    rw [List.mem_singleton] at hb
    exact hk (hb ▸ hab ▸ ha)

end Entries

end ChartDoc
