/-
  Formats of records. A record is a row of fields. The definition of the record, what is written
  and what is read all follow from the row, and so do its laws, field by field. The keys of a
  row are distinct, so what one field writes is not found under the key of another
  (`writes_written`).
-/
import ChartDoc.Proofs.Format.Field
import Mathlib.Logic.Equiv.Defs

namespace ChartDoc

open Schema

/-- The members of a record, in order. -/
inductive Fields (r : Registry) : Type → Type 1 where
  | nil : Fields r Unit
  | cons {α β : Type} (field : Field r α) (rest : Fields r β) : Fields r (α × β)

variable {r : Registry}

namespace Fields

variable {α : Type}

/-- The properties that the definition of the record declares. -/
def properties {α : Type} : Fields r α → List (String × Shape)
  | nil => []
  | cons field rest => (field.key, field.shape) :: rest.properties

def keys (fields : Fields r α) : List String :=
  fields.properties.map Prod.fst

/-- The keys of the members that must be there. -/
def required {α : Type} : Fields r α → List String
  | nil => []
  | cons field rest => if field.isRequired then field.key :: rest.required else rest.required

/-- The members that are written, before the absent ones are left out. -/
def write {α : Type} : Fields r α → α → List (Option (String × Json))
  | nil, _ => []
  | cons field rest, a => field.write a.1 :: rest.write a.2

/-- What is read from the members of an object. -/
def read? {α : Type} : Fields r α → Entries Json → Option α
  | nil, _ => some ()
  | cons field rest, members => do
    let a ← field.read? members
    let b ← rest.read? members
    return (a, b)

/-- What is made of what is read, field by field. -/
def readThen? {α β : Type} : Fields r α → Entries Json → (α → Option β) → Option β
  | nil, _, f => f ()
  | cons field rest, members, f =>
    (field.read? members).bind fun a => rest.readThen? members fun b => f (a, b)

def Sound {α : Type} : Fields r α → α → Prop
  | nil, _ => True
  | cons field rest, a => field.Sound a.1 ∧ rest.Sound a.2

def Finite {α : Type} : Fields r α → α → Prop
  | nil, _ => True
  | cons field rest, a => field.Finite a.1 ∧ rest.Finite a.2

/-- The walk finds nothing in the members under the keys of the row. -/
def Clean {α : Type} : Fields r α → Entries Json → Prop
  | nil, _ => True
  | cons field rest, members =>
    field.Clean (List.lookup field.key members) ∧ rest.Clean members

/-- Null is found under a key of the row, or in a member. -/
def HoldsNull {α : Type} : Fields r α → Entries Json → Prop
  | nil, _ => False
  | cons field rest, members =>
    field.HoldsNull (List.lookup field.key members) ∨ rest.HoldsNull members

/-- The members under the keys of the row are the ones that are written. -/
def Writes {α : Type} : Fields r α → α → Entries Json → Prop
  | nil, _, _ => True
  | cons field rest, a, members =>
    List.lookup field.key members = field.content a.1 ∧ rest.Writes a.2 members

/-- The members that are written. -/
def written (fields : Fields r α) (a : α) : Entries Json :=
  (fields.write a).filterMap id

theorem readThen?_eq {β : Type} (fields : Fields r α) (members : Entries Json) (f : α → Option β) :
    fields.readThen? members f = (fields.read? members).bind f := by
  induction fields with
  | nil => rfl
  | cons field rest ih =>
    simp [readThen?, read?, ih, Option.bind_assoc]

theorem written_cons {β : Type} (field : Field r α) (rest : Fields r β) (a : α × β) :
    (cons field rest).written a =
      ((field.content a.1).map fun w => (field.key, w)).toList ++ rest.written a.2 := by
  unfold written
  rw [write, List.filterMap_cons, field.write_eq]
  cases field.content a.1 <;> rfl

theorem keys_cons {β : Type} (field : Field r α) (rest : Fields r β) :
    (cons field rest).keys = field.key :: rest.keys := rfl

theorem required_subset {fields : Fields r α} {name : String} (h : name ∈ fields.required) :
    name ∈ fields.keys := by
  induction fields with
  | nil => cases h
  | cons field rest ih =>
    rw [keys_cons]
    unfold required at h
    split at h
    · rcases List.mem_cons.mp h with rfl | h
      · exact List.mem_cons_self
      · exact List.mem_cons_of_mem _ (ih h)
    · exact List.mem_cons_of_mem _ (ih h)

/-! ## Laws of a row -/

theorem clean_iff (fields : Fields r α) (members : Entries Json) :
    fields.Clean members ↔
      (∃ a, fields.read? members = some a ∧ fields.Sound a) ∧ ¬fields.HoldsNull members := by
  induction fields with
  | nil => simp [Clean, read?, Sound, HoldsNull]
  | cons field rest ih =>
    unfold Clean HoldsNull
    rw [field.clean_iff, ih, ← field.read?_eq, not_or]
    constructor
    · rintro ⟨⟨⟨a, ha, hsa⟩, hna⟩, ⟨b, hb, hsb⟩, hnb⟩
      exact ⟨⟨(a, b), by simp [read?, ha, hb], hsa, hsb⟩, hna, hnb⟩
    · rintro ⟨⟨⟨a, b⟩, hread, hsa, hsb⟩, hna, hnb⟩
      obtain ⟨a', ha, hread⟩ := Option.bind_eq_some_iff.mp hread
      obtain ⟨b', hb, hread⟩ := Option.bind_eq_some_iff.mp hread
      cases hread
      exact ⟨⟨⟨a, ha, hsa⟩, hna⟩, ⟨b, hb, hsb⟩, hnb⟩

theorem clean_iff_of_writes {fields : Fields r α} {a : α} {members : Entries Json}
    (h : fields.Writes a members) : fields.Clean members ↔ fields.Sound a ∧ fields.Finite a := by
  induction fields with
  | nil => simp [Clean, Sound, Finite]
  | cons field rest ih =>
    unfold Clean Sound Finite
    rw [h.1, field.clean_content_iff, ih h.2, and_and_and_comm]

theorem read?_of_writes {fields : Fields r α} {a : α} {members : Entries Json}
    (h : fields.Writes a members) (hfinite : fields.Finite a) : fields.read? members = some a := by
  induction fields with
  | nil => rfl
  | cons field rest ih =>
    have hfield : field.read? members = some a.1 := by
      rw [field.read?_eq, h.1, field.readGiven?_content a.1 hfinite.1]
    simp [read?, hfield, ih h.2 hfinite.2]

/-- What is written from what was read: the declared members, in normal form. -/
theorem written_of_read? {fields : Fields r α} {a : α} {members : Entries Json}
    (hclean : fields.Clean members) (h : fields.read? members = some a) :
    fields.written a = (Shape.propertyJsons fields.properties).filterMap fun p =>
      (List.lookup p.1 members).map fun w => (p.1, r.normalForm p.2 w) := by
  induction fields with
  | nil => rfl
  | cons field rest ih =>
    obtain ⟨a, b⟩ := a
    obtain ⟨a', ha, h⟩ := Option.bind_eq_some_iff.mp h
    obtain ⟨b', hb, h⟩ := Option.bind_eq_some_iff.mp h
    cases h
    rw [field.read?_eq] at ha
    rw [written_cons, ih hclean.2 hb, field.content_of_readGiven? _ a hclean.1 ha, properties,
      Shape.propertyJsons, List.filterMap_cons]
    cases List.lookup field.key members <;> rfl

/-- A member that a row writes is under a key of the row. -/
theorem lookup_written_of_notMem {fields : Fields r α} {a : α} {key : String}
    (h : key ∉ fields.keys) : List.lookup key (fields.written a) = none := by
  induction fields with
  | nil => rfl
  | cons field rest ih =>
    rw [keys_cons, List.mem_cons, not_or] at h
    rw [written_cons]
    cases field.content a.1 with
    | none => exact ih h.2
    | some w => exact (Entries.lookup_cons ..).trans ((if_neg h.1).trans (ih h.2))

theorem Writes.congr {fields : Fields r α} {a : α} {members members' : Entries Json}
    (heq : ∀ key ∈ fields.keys, List.lookup key members' = List.lookup key members)
    (h : fields.Writes a members) : fields.Writes a members' := by
  induction fields with
  | nil => trivial
  | cons field rest ih =>
    refine ⟨?_, ih (fun key hkey => heq key (List.mem_cons_of_mem _ hkey)) h.2⟩
    rw [heq _ List.mem_cons_self]
    exact h.1

/-- With distinct keys, what is written for a field is found under its key. -/
theorem writes_written {fields : Fields r α} (distinct : fields.keys.Nodup) (a : α) :
    fields.Writes a (fields.written a) := by
  induction fields with
  | nil => trivial
  | cons field rest ih =>
    obtain ⟨hkey, hrest⟩ := List.nodup_cons.mp distinct
    refine ⟨?_, (ih hrest a.2).congr fun key hmem => ?_⟩
    · rw [written_cons]
      cases field.content a.1 with
      | none => exact lookup_written_of_notMem hkey
      | some w => exact List.lookup_cons_self
    · rw [written_cons]
      cases field.content a.1 with
      | none => rfl
      | some w =>
        have hne : key ≠ field.key := by
          rintro rfl
          exact hkey hmem
        exact (Entries.lookup_cons ..).trans (if_neg hne)

/-! ## The form of a record -/

theorem formed (fields : Fields r α) :
    ∀ q ∈ (Shape.propertyJsons fields.properties).map Prod.snd, r.Formed q := by
  induction fields with
  | nil => nofun
  | cons field rest ih =>
    rw [properties, Shape.propertyJsons, List.map_cons, List.forall_mem_cons]
    exact ⟨field.formed, ih⟩

theorem clean_iff_forall (fields : Fields r α) (members : Entries Json) :
    fields.Clean members ↔
      (∀ p ∈ Shape.propertyJsons fields.properties, ∀ w, List.lookup p.1 members = some w →
        r.Clean p.2 w) ∧
      ∀ name ∈ fields.required, List.lookup name members ≠ none := by
  induction fields with
  | nil => exact ⟨fun _ => ⟨nofun, nofun⟩, fun _ => trivial⟩
  | cons field rest ih =>
    unfold Clean Field.Clean
    rw [ih, properties, Shape.propertyJsons, List.forall_mem_cons]
    cases hrequired : field.isRequired <;> simp [required, hrequired, and_assoc, and_left_comm]

theorem holdsNull_iff_exists {fields : Fields r α} (distinct : fields.keys.Nodup)
    (members : Entries Json) :
    fields.HoldsNull members ↔ ∃ p ∈ Shape.propertyJsons fields.properties,
      (p.1 ∉ fields.required ∧ List.lookup p.1 members = some .null) ∨
        ∃ w, List.lookup p.1 members = some w ∧ r.HoldsNull p.2 w := by
  induction fields with
  | nil => exact ⟨nofun, nofun⟩
  | cons field rest ih =>
    obtain ⟨hkey, hrest⟩ := List.nodup_cons.mp distinct
    have hhead : field.key ∉ (cons field rest).required ↔ field.isRequired = false := by
      have hnot : field.key ∉ rest.required := fun h => hkey (required_subset h)
      cases hrequired : field.isRequired <;> simp [required, hrequired, hnot]
    have htail : ∀ p ∈ Shape.propertyJsons rest.properties,
        (p.1 ∉ (cons field rest).required ↔ p.1 ∉ rest.required) := by
      intro p hp
      have hne : p.1 ≠ field.key := by
        intro h
        have hmem : p.1 ∈ rest.keys := by
          rw [keys, ← Shape.keys_propertyJsons]
          exact List.mem_map_of_mem hp
        exact hkey (h ▸ hmem)
      cases hrequired : field.isRequired <;> simp [required, hrequired, hne]
    unfold HoldsNull Field.HoldsNull
    rw [ih hrest, properties, Shape.propertyJsons, List.exists_mem_cons_iff, hhead]
    refine or_congr Iff.rfl (exists_congr fun p => and_congr_right fun hp => ?_)
    rw [htail p hp]

/-- The shape of a record with the fields of the row. -/
def recordShape (description : String) (fields : Fields r α) : Shape :=
  .object description fields.properties fields.required

theorem resolve?_recordShape (description : String) (fields : Fields r α) :
    r.resolve? (fields.recordShape description).json =
      some (fields.recordShape description).json :=
  Registry.resolve?_shape _ rfl

theorem hasForm_recordShape (description : String) (fields : Fields r α) :
    HasForm (fields.recordShape description).json
      (.object (Shape.propertyJsons fields.properties) fields.required) :=
  Shape.hasForm_object description fields.properties fields.required

theorem form_sound {fields : Fields r α} (distinct : fields.keys.Nodup)
    (plain : ∀ key ∈ fields.keys, PlainName key) :
    (Form.object (Shape.propertyJsons fields.properties) fields.required).Sound := by
  have hkeys := Shape.keys_propertyJsons fields.properties
  refine ⟨?_, ?_, ?_⟩
  · rw [Entries.Distinct, hkeys]
    exact distinct
  · rw [hkeys]
    exact plain
  · rw [hkeys]
    exact fun name h => required_subset h

/-- The walk along the definition of a record is the walk of the members under its keys. -/
theorem clean_recordShape_iff {fields : Fields r α} (distinct : fields.keys.Nodup)
    (plain : ∀ key ∈ fields.keys, PlainName key) (description : String) (v : Json) :
    r.Clean (fields.recordShape description).json v ↔
      ∃ members, v = .object members ∧ fields.Clean members := by
  rw [Registry.clean_object_iff (resolve?_recordShape description fields)
    (hasForm_recordShape description fields) (form_sound distinct plain)]
  simp only [fields.clean_iff_forall]

theorem holdsNull_recordShape_iff {fields : Fields r α} (distinct : fields.keys.Nodup)
    (plain : ∀ key ∈ fields.keys, PlainName key) (description : String)
    (members : Entries Json) :
    r.HoldsNull (fields.recordShape description).json (.object members) ↔
      fields.HoldsNull members := by
  rw [Registry.holdsNull_object_iff (resolve?_recordShape description fields)
    (hasForm_recordShape description fields) (form_sound distinct plain).1,
    holdsNull_iff_exists distinct]

end Fields

variable {α β : Type}

namespace Format

/-- The format of a row: records as nested pairs of what their fields contain. -/
def row (description : String) (fields : Fields r α) (distinct : fields.keys.Nodup)
    (plain : ∀ key ∈ fields.keys, PlainName key) : Format r α where
  shape := fields.recordShape description
  write a := .record (fields.write a)
  read? v := v.members?.bind fields.read?
  Sound := fields.Sound
  Finite := fields.Finite
  formed :=
    .plain (Shape.get?_referenceKey rfl) (fields.hasForm_recordShape description)
      (Fields.form_sound distinct plain) fields.formed
  read?_null := rfl
  clean_iff v := by
    rw [Fields.clean_recordShape_iff distinct plain]
    constructor
    · rintro ⟨members, rfl, h⟩
      rw [Fields.holdsNull_recordShape_iff distinct plain]
      exact (fields.clean_iff members).mp h
    · rintro ⟨⟨a, hread, hsound⟩, h⟩
      obtain ⟨members, hmembers, hread⟩ := Option.bind_eq_some_iff.mp hread
      have hv := Json.members?_eq_some_iff.mp hmembers
      rw [hv, Fields.holdsNull_recordShape_iff distinct plain] at h
      exact ⟨members, hv, (fields.clean_iff members).mpr ⟨⟨a, hread, hsound⟩, h⟩⟩
  clean_write_iff a := by
    rw [Fields.clean_recordShape_iff distinct plain]
    have hiff := Fields.clean_iff_of_writes (Fields.writes_written distinct a)
    constructor
    · rintro ⟨members, hmembers, h⟩
      cases hmembers
      exact hiff.mp h
    · exact fun h => ⟨_, rfl, hiff.mpr h⟩
  read?_write a h := Fields.read?_of_writes (Fields.writes_written distinct a) h
  write_of_read? v a h hread := by
    obtain ⟨members, rfl, hmembers⟩ :=
      (Fields.clean_recordShape_iff distinct plain description v).mp h
    have hdemand := Registry.demand?_eq (fields.resolve?_recordShape description)
      (fields.hasForm_recordShape description)
    rw [Registry.normalForm_object hdemand]
    exact congrArg Json.object (Fields.written_of_read? hmembers hread)

/-- The format of a type whose values correspond to those of another. -/
def via (f : Format r α) (e : β ≃ α) (write : β → Json) (read? : Json → Option β)
    (write_eq : ∀ b, write b = f.write (e b))
    (read?_eq : ∀ v, read? v = (f.read? v).map e.symm) : Format r β where
  shape := f.shape
  write := write
  read? := read?
  Sound b := f.Sound (e b)
  Finite b := f.Finite (e b)
  formed := f.formed
  read?_null := by rw [read?_eq, f.read?_null, Option.map_none]
  clean_iff v := by
    rw [f.clean_iff, read?_eq]
    simp [Equiv.symm_apply_eq, e.surjective.exists]
  clean_write_iff b := by
    rw [write_eq]
    exact f.clean_write_iff (e b)
  read?_write b h := by
    rw [read?_eq, write_eq, f.read?_write (e b) h, Option.map_some, e.symm_apply_apply]
  write_of_read? v b hclean h := by
    rw [read?_eq] at h
    obtain ⟨a, ha, rfl⟩ := Option.map_eq_some_iff.mp h
    rw [write_eq, e.apply_symm_apply]
    exact f.write_of_read? v a hclean ha

/-- The format of a type of records, given how its values correspond to rows of fields, and its
    own writer and reader. -/
def record (description : String) (fields : Fields r α) (e : β ≃ α) (write : β → Json)
    (read? : Json → Option β) (distinct : fields.keys.Nodup)
    (plain : ∀ key ∈ fields.keys, PlainName key)
    (write_eq : ∀ b, write b = .record (fields.write (e b)))
    (read?_eq : ∀ v, read? v =
      v.members?.bind fun members => fields.readThen? members fun a => some (e.symm a)) :
    Format r β :=
  (row description fields distinct plain).via e write read? write_eq fun v => by
    rw [read?_eq, row, Option.map_bind]
    simp only [Fields.readThen?_eq, Function.comp_def, Option.map_eq_bind]

end Format

/-! ## Records without bounds and numbers -/

/-- Every content of the row is sound, and its numbers are finite. -/
def Fields.Free (fields : Fields r α) : Prop :=
  ∀ a, fields.Sound a ∧ fields.Finite a

theorem Fields.Free.nil : (Fields.nil : Fields r Unit).Free :=
  fun _ => ⟨trivial, trivial⟩

theorem Fields.Free.cons {field : Field r α} {rest : Fields r β} (h : field.Free)
    (hrest : rest.Free) : (Fields.cons field rest).Free :=
  fun a => ⟨⟨(h a.1).1, (hrest a.2).1⟩, (h a.1).2, (hrest a.2).2⟩

theorem Format.Free.record {description : String} {fields : Fields r α} {e : β ≃ α}
    {write : β → Json} {read? : Json → Option β} {distinct : fields.keys.Nodup}
    {plain : ∀ key ∈ fields.keys, PlainName key}
    {write_eq : ∀ b, write b = .record (fields.write (e b))}
    {read?_eq : ∀ v, read? v =
      v.members?.bind fun members => fields.readThen? members fun a => some (e.symm a)}
    (h : fields.Free) :
    (Format.record description fields e write read? distinct plain write_eq read?_eq).Free :=
  fun b => h (e b)

end ChartDoc
