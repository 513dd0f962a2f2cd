/-
  Formats. The definitions of a registry, the writer of a type and its reader describe one
  format in three ways. A `Format` puts the three together with the laws by which they agree:
  the walk accepts exactly what is read as a sound value, if null does not stand for an absent
  member (`clean_iff`); what is written is accepted exactly when the value is sound and its
  numbers are finite (`clean_write_iff`), and then it is read back (`read?_write`); and what is
  read is written again in normal form (`write_of_read?`).

  Formats are built from formats of parts, so each law is proved once for each way of building.
  Records follow in `Format.Record`.
-/
import ChartDoc.Proofs.Json.Number
import ChartDoc.Proofs.Schema.NormalForm
import ChartDoc.Proofs.Schema.ShapeForm
import ChartDoc.Proofs.Walk.Clean
import ChartDoc.Vocabulary

namespace ChartDoc

open Schema

/-- A type with its shape in a registry, its writer and its reader, which agree. -/
structure Format (r : Registry) (α : Type) where
  shape : Shape
  write : α → Json
  read? : Json → Option α
  /-- Whether a value lies within the bounds of the shape. -/
  Sound : α → Prop
  /-- Whether all numbers in a value are finite. -/
  Finite : α → Prop
  formed : r.Formed shape.json
  read?_null : read? .null = none
  clean_iff : ∀ v, r.Clean shape.json v ↔
    (∃ a, read? v = some a ∧ Sound a) ∧ ¬r.HoldsNull shape.json v
  clean_write_iff : ∀ a, r.Clean shape.json (write a) ↔ Sound a ∧ Finite a
  read?_write : ∀ a, Finite a → read? (write a) = some a
  write_of_read? : ∀ v a, r.Clean shape.json v → read? v = some a →
    write a = r.normalForm shape.json v

namespace Format

variable {r : Registry}

/-- Every value is sound, and its numbers are finite. -/
def Free {α : Type} (f : Format r α) : Prop :=
  ∀ a, f.Sound a ∧ f.Finite a

/-! ## Texts, truth values and words -/

theorem clean_text_iff {v : Json} : r.Clean Shape.text.json v ↔ ∃ text, v = .string text := by
  rw [Registry.clean_leaf_iff (Registry.resolve?_shape .text rfl) Shape.hasForm_text trivial
    trivial]
  cases v <;> simp [Form.Admits]

theorem not_holdsNull_of_leaf {shape : Shape} {form : Form} (hshape : shape.isReference = false)
    (has : HasForm shape.json form) (leaf : form.IsLeaf) (v : Json) :
    ¬r.HoldsNull shape.json v :=
  Registry.not_holdsNull_leaf (Registry.resolve?_shape shape hshape) has leaf v

/-- Texts. -/
def text : Format r String where
  shape := .text
  write := .string
  read? := Json.string?
  Sound _ := True
  Finite _ := True
  formed := .plain (Shape.get?_referenceKey rfl) Shape.hasForm_text trivial nofun
  read?_null := rfl
  clean_iff v := by
    rw [clean_text_iff]
    simp [Json.string?_eq_some_iff, not_holdsNull_of_leaf rfl Shape.hasForm_text trivial]
  clean_write_iff a := by simp [clean_text_iff]
  read?_write _ _ := rfl
  write_of_read? v a _ h := by
    rw [Json.string?_eq_some_iff.mp h, Registry.normalForm_string]

theorem Free.text : (Format.text : Format r String).Free :=
  fun _ => ⟨trivial, trivial⟩

theorem clean_boolean_iff {v : Json} : r.Clean Shape.boolean.json v ↔ ∃ b, v = .bool b := by
  rw [Registry.clean_leaf_iff (Registry.resolve?_shape .boolean rfl) Shape.hasForm_boolean trivial
    trivial]
  cases v <;> simp [Form.Admits]

/-- Truth values. -/
def boolean : Format r Bool where
  shape := .boolean
  write := .bool
  read? := Json.bool?
  Sound _ := True
  Finite _ := True
  formed := .plain (Shape.get?_referenceKey rfl) Shape.hasForm_boolean trivial nofun
  read?_null := rfl
  clean_iff v := by
    rw [clean_boolean_iff]
    simp [Json.bool?_eq_some_iff, not_holdsNull_of_leaf rfl Shape.hasForm_boolean trivial]
  clean_write_iff a := by simp [clean_boolean_iff]
  read?_write _ _ := rfl
  write_of_read? v a _ h := by
    rw [Json.bool?_eq_some_iff.mp h, Registry.normalForm_bool]

theorem Free.boolean : (Format.boolean : Format r Bool).Free :=
  fun _ => ⟨trivial, trivial⟩

theorem clean_word_iff {words : List String} {v : Json} :
    r.Clean (Shape.word words).json v ↔ ∃ word ∈ words, v = .string word := by
  rw [Registry.clean_leaf_iff (Registry.resolve?_shape _ rfl) (Shape.hasForm_word words) trivial
    trivial]
  cases v <;> simp [Form.Admits]

theorem ofJson?_eq_some_iff {α : Type} [Vocabulary α] {v : Json} {a : α} :
    Vocabulary.ofJson? v = some a ↔ v = .string (Vocabulary.word a) := by
  unfold Vocabulary.ofJson?
  constructor
  · intro h
    obtain ⟨s, hs, ha⟩ := Option.bind_eq_some_iff.mp h
    rw [Json.string?_eq_some_iff.mp hs, Vocabulary.ofWord?_eq_some_iff.mp ha]
  · rintro rfl
    exact Vocabulary.ofWord?_word a

/-- The words of a vocabulary. -/
def word (α : Type) [Vocabulary α] : Format r α where
  shape := .word (Vocabulary.words α)
  write := Vocabulary.json
  read? := Vocabulary.ofJson?
  Sound _ := True
  Finite _ := True
  formed := .plain (Shape.get?_referenceKey rfl) (Shape.hasForm_word _) trivial nofun
  read?_null := rfl
  clean_iff v := by
    rw [clean_word_iff]
    have hnull := not_holdsNull_of_leaf (r := r) rfl
      (Shape.hasForm_word (Vocabulary.words α)) trivial v
    constructor
    · rintro ⟨word, hword, rfl⟩
      obtain ⟨a, -, rfl⟩ := List.mem_map.mp hword
      exact ⟨⟨a, Vocabulary.ofJson?_json a, trivial⟩, hnull⟩
    · rintro ⟨⟨a, ha, -⟩, -⟩
      exact ⟨_, List.mem_map.mpr ⟨a, Vocabulary.mem_all a, rfl⟩, ofJson?_eq_some_iff.mp ha⟩
  clean_write_iff a := by
    rw [clean_word_iff]
    exact ⟨fun _ => ⟨trivial, trivial⟩,
      fun _ => ⟨_, List.mem_map.mpr ⟨a, Vocabulary.mem_all a, rfl⟩, rfl⟩⟩
  read?_write a _ := Vocabulary.ofJson?_json a
  write_of_read? v a _ h := by
    rw [ofJson?_eq_some_iff.mp h, Registry.normalForm_string]
    rfl

theorem Free.word {α : Type} [Vocabulary α] : (Format.word α : Format r α).Free :=
  fun _ => ⟨trivial, trivial⟩

/-! ## Numbers -/

/-- Whether a number lies between two bounds, either of which may be absent. -/
def Within (least most : Option Json.Number) (x : Binary64) : Prop :=
  (∀ m, least = some m → m.toBinary64 ≤ x) ∧ ∀ m, most = some m → x ≤ m.toBinary64

theorem within_none (x : Binary64) : Within none none x := by
  simp [Within]

theorem clean_number_iff {least most : Option Json.Number}
    (ordered : (Form.number least most).Sound) {v : Json} :
    r.Clean (Shape.number least most).json v ↔
      ∃ n, v = .number n ∧ Within least most n.toBinary64 := by
  rw [Registry.clean_leaf_iff (Registry.resolve?_shape _ rfl) (Shape.hasForm_number least most)
    ordered trivial]
  have hcompare (m n : Json.Number) : ¬n.toBinary64 < m.toBinary64 ↔ m.toBinary64 ≤ n.toBinary64 :=
    Binary64.not_lt_iff n.toBinary64_isFinite m.toBinary64_isFinite
  cases v <;> simp [Form.Admits, Within, hcompare]

/-- Numbers between two bounds. -/
def number (least most : Option Json.Number) (ordered : (Form.number least most).Sound) :
    Format r Binary64 where
  shape := .number least most
  write := .ofBinary64
  read? := Json.binary64?
  Sound := Within least most
  Finite x := x.isFinite = true
  formed := .plain (Shape.get?_referenceKey rfl) (Shape.hasForm_number least most) ordered nofun
  read?_null := rfl
  clean_iff v := by
    rw [clean_number_iff ordered]
    have hnull := not_holdsNull_of_leaf (r := r) rfl (Shape.hasForm_number least most) trivial v
    cases v <;> simp [Json.binary64?, hnull]
  clean_write_iff x := by
    rw [clean_number_iff ordered]
    cases x <;> simp [Json.ofBinary64, Json.Number.toBinary64, Binary64.isFinite, Binary64.finite?]
  read?_write x hx := by
    obtain ⟨y, rfl⟩ := Binary64.isFinite_iff.mp hx
    rfl
  write_of_read? v x _ h := by
    have hdemand := Registry.demand?_eq (r := r) (Registry.resolve?_shape (.number least most) rfl)
      (Shape.hasForm_number least most)
    cases v with
    | number n =>
      rw [Registry.normalForm_number hdemand, ← Option.some.inj h]
    | _ => cases h

/-! ## Lists -/

theorem mapM_eq_some_iff {α β : Type} {f : α → Option β} {xs : List α} {ys : List β} :
    List.mapM f xs = some ys ↔ xs.map f = ys.map some := by
  induction xs generalizing ys with
  | nil => cases ys <;> simp
  | cons x xs ih =>
    rw [List.mapM_cons, Option.bind_eq_bind, Option.bind_eq_some_iff]
    constructor
    · rintro ⟨y, hy, h⟩
      obtain ⟨rest, hrest, h⟩ := Option.bind_eq_some_iff.mp h
      cases h
      rw [List.map_cons, List.map_cons, hy, ih.mp hrest]
    · intro h
      cases ys with
      | nil => cases h
      | cons y ys =>
        obtain ⟨hy, hrest⟩ := List.cons.inj h
        exact ⟨y, hy, Option.bind_eq_some_iff.mpr ⟨ys, ih.mpr hrest, rfl⟩⟩

theorem list?_eq_some_iff {α : Type} {read? : Json → Option α} {v : Json} {xs : List α} :
    Json.list? read? v = some xs ↔ ∃ vs, v = .array vs ∧ vs.map read? = xs.map some := by
  unfold Json.list?
  rw [Option.bind_eq_some_iff]
  simp only [Json.items?_eq_some_iff, mapM_eq_some_iff]

/-- Items that are all read as something of a kind are read as a list of that kind. -/
theorem exists_map_eq_iff {α : Type} {read? : Json → Option α} {P : α → Prop} {vs : List Json} :
    (∀ w ∈ vs, ∃ a, read? w = some a ∧ P a) ↔
      ∃ xs : List α, vs.map read? = xs.map some ∧ ∀ x ∈ xs, P x := by
  induction vs with
  | nil => exact ⟨fun _ => ⟨[], rfl, nofun⟩, fun _ => nofun⟩
  | cons v vs ih =>
    rw [List.forall_mem_cons, ih]
    constructor
    · rintro ⟨⟨a, ha, hsound⟩, xs, hxs, hall⟩
      exact ⟨a :: xs, by rw [List.map_cons, List.map_cons, ha, hxs],
        List.forall_mem_cons.mpr ⟨hsound, hall⟩⟩
    · rintro ⟨xs, hxs, hall⟩
      cases xs with
      | nil => cases hxs
      | cons a xs =>
        obtain ⟨ha, hxs⟩ := List.cons.inj hxs
        obtain ⟨hsound, hall⟩ := List.forall_mem_cons.mp hall
        exact ⟨⟨a, ha, hsound⟩, xs, hxs, hall⟩

theorem map_write_eq {α : Type} {read? : Json → Option α} {write : α → Json} {normal : Json → Json}
    {vs : List Json} {xs : List α} (hxs : vs.map read? = xs.map some)
    (h : ∀ w ∈ vs, ∀ x, read? w = some x → write x = normal w) :
    xs.map write = vs.map normal := by
  induction vs generalizing xs with
  | nil =>
    cases xs with
    | nil => rfl
    | cons x xs => cases hxs
  | cons w vs ih =>
    cases xs with
    | nil => cases hxs
    | cons x xs =>
      obtain ⟨hread, hrest⟩ := List.cons.inj hxs
      rw [List.map_cons, List.map_cons, h w List.mem_cons_self x hread,
        ih hrest fun u hu => h u (List.mem_cons_of_mem _ hu)]

/-- Lists with a least length, if one is asked for. -/
def list {α : Type} (item : Format r α) (least : Option Nat) (fits : ∀ n ∈ least, Json.Fits n) :
    Format r (List α) where
  shape := .list item.shape least
  write := .list item.write
  read? := Json.list? item.read?
  Sound xs := (∀ n, least = some n → n ≤ xs.length) ∧ ∀ x ∈ xs, item.Sound x
  Finite xs := ∀ x ∈ xs, item.Finite x
  formed := by
    refine .plain (Shape.get?_referenceKey rfl) (Shape.hasForm_list item.shape fits) trivial ?_
    intro q hq
    rw [List.mem_singleton.mp hq]
    exact item.formed
  read?_null := rfl
  clean_iff v := by
    have resolved := Registry.resolve?_shape (r := r) (.list item.shape least) rfl
    have has := Shape.hasForm_list item.shape fits
    rw [Registry.clean_array_iff resolved has]
    simp only [list?_eq_some_iff]
    constructor
    · rintro ⟨vs, rfl, hleast, hitems⟩
      have hread : ∀ w ∈ vs, ∃ a, item.read? w = some a ∧ item.Sound a := fun w hw =>
        ((item.clean_iff w).mp (hitems w hw)).1
      obtain ⟨xs, hxs, hsound⟩ := exists_map_eq_iff.mp hread
      have hlength : vs.length = xs.length := by simpa using congrArg List.length hxs
      refine ⟨⟨xs, ⟨vs, rfl, hxs⟩, hlength ▸ hleast, hsound⟩, ?_⟩
      rw [Registry.holdsNull_array_iff resolved has]
      rintro ⟨w, hw, hnull⟩
      exact ((item.clean_iff w).mp (hitems w hw)).2 hnull
    · rintro ⟨⟨xs, ⟨vs, rfl, hxs⟩, hleast, hsound⟩, hnull⟩
      have hlength : vs.length = xs.length := by simpa using congrArg List.length hxs
      rw [Registry.holdsNull_array_iff resolved has] at hnull
      refine ⟨vs, rfl, hlength ▸ hleast, fun w hw => (item.clean_iff w).mpr ⟨?_, ?_⟩⟩
      · exact exists_map_eq_iff.mpr ⟨xs, hxs, hsound⟩ w hw
      · exact fun h => hnull ⟨w, hw, h⟩
  clean_write_iff xs := by
    rw [Registry.clean_array_iff (Registry.resolve?_shape (.list item.shape least) rfl)
      (Shape.hasForm_list item.shape fits)]
    constructor
    · rintro ⟨vs, hvs, hleast, hitems⟩
      cases hvs
      rw [List.length_map] at hleast
      have hall : ∀ x ∈ xs, item.Sound x ∧ item.Finite x := fun x hx =>
        (item.clean_write_iff x).mp (hitems _ (List.mem_map_of_mem hx))
      exact ⟨⟨hleast, fun x hx => (hall x hx).1⟩, fun x hx => (hall x hx).2⟩
    · rintro ⟨⟨hleast, hsound⟩, hfinite⟩
      refine ⟨_, rfl, by rwa [List.length_map], fun w hw => ?_⟩
      obtain ⟨x, hx, rfl⟩ := List.mem_map.mp hw
      exact (item.clean_write_iff x).mpr ⟨hsound x hx, hfinite x hx⟩
  read?_write xs hxs := Json.list?_list fun x hx => item.read?_write x (hxs x hx)
  write_of_read? v xs hclean h := by
    have resolved := Registry.resolve?_shape (r := r) (.list item.shape least) rfl
    have has := Shape.hasForm_list item.shape fits
    obtain ⟨vs, rfl, hxs⟩ := list?_eq_some_iff.mp h
    obtain ⟨_, hvs, -, hitems⟩ := (Registry.clean_array_iff resolved has).mp hclean
    cases hvs
    rw [Registry.normalForm_array (Registry.demand?_eq resolved has)]
    exact congrArg Json.array
      (map_write_eq hxs fun w hw x hread => item.write_of_read? w x (hitems w hw) hread)

theorem Free.list {α : Type} {item : Format r α} (h : item.Free) :
    (Format.list item none nofun).Free :=
  fun _ => ⟨⟨nofun, fun x _ => (h x).1⟩, fun x _ => (h x).2⟩

/-! ## References -/

/-- The format of a registered definition, under its name. -/
def reference {α : Type} (name : String) (f : Format r α) (own : f.shape.isReference = false)
    (registered : r.get? name = some f.shape.json) : Format r α :=
  have resolved : r.resolve? (Shape.reference name).json = r.resolve? f.shape.json := by
    rw [Registry.resolve?_reference, registered, Registry.resolve?_shape _ own]
  have hclean (v : Json) : r.Clean (Shape.reference name).json v ↔ r.Clean f.shape.json v :=
    Registry.clean_congr resolved
  { shape := .reference name
    write := f.write
    read? := f.read?
    Sound := f.Sound
    Finite := f.Finite
    formed := .ofReference registered (Shape.get?_referenceKey own)
    read?_null := f.read?_null
    clean_iff v := by
      have hnull : r.HoldsNull (Shape.reference name).json v ↔ r.HoldsNull f.shape.json v :=
        ⟨Registry.holdsNull_of_resolve?_eq resolved,
          Registry.holdsNull_of_resolve?_eq resolved.symm⟩
      rw [hclean, hnull]
      exact f.clean_iff v
    clean_write_iff a := (hclean _).trans (f.clean_write_iff a)
    read?_write := f.read?_write
    write_of_read? v a h hread := by
      have hdemand : r.demand? (Shape.reference name).json = r.demand? f.shape.json := by
        rw [Registry.demand?, Registry.demand?, resolved]
      rw [Registry.normalForm_congr hdemand]
      exact f.write_of_read? v a ((hclean v).mp h) hread }

end Format

end ChartDoc
