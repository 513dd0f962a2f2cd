/-
  Paths of locations. `Location.path` extends a path step by step and treats a name under the
  path of the whole document in its own way. `Location.rendering` says what comes out, all at
  once: the mark of the root stands in front unless the first step is a name, names follow a
  point and positions stand in brackets. The two agree and no two locations share a path
  (`path_eq_rendering`, `rendering_injective`) as long as names are plain.
-/
import ChartDoc.Proofs.Schema.Form
import Mathlib.Data.List.Basic

namespace ChartDoc

open Schema

namespace Location

/-- All names in a location are plain. -/
def Plain (location : Location) : Prop :=
  ∀ name, .key name ∈ location → PlainName name

/-- The text of steps that follow others. -/
def suffix : Location → String
  | [] => ""
  | .key name :: rest => "." ++ name ++ suffix rest
  | .index position :: rest => "[" ++ naturalText position ++ "]" ++ suffix rest

/-- The text of a location. -/
def rendering : Location → String
  | .key name :: rest => name ++ suffix rest
  | location => rootPath ++ suffix location

theorem Plain.tail {step : Step} {location : Location} (h : Plain (step :: location)) :
    location.Plain :=
  fun name hname => h name (List.mem_cons_of_mem _ hname)

/-! ## One text for each location -/

theorem ne_rootPath_of_mem {text : String} {c : Char} (h : c ∈ text.toList) (hc : c ≠ '$') :
    text ≠ rootPath := by
  rintro rfl
  exact hc (List.mem_singleton.mp h)

/-- Beyond the root, a path is extended by the texts of the steps. -/
theorem foldl_extend {path : String} (h : path ≠ rootPath) (location : Location) :
    location.foldl Step.extend path = path ++ location.suffix := by
  induction location generalizing path with
  | nil => simp [suffix]
  | cons step rest ih =>
    rw [List.foldl_cons]
    cases step with
    | key name =>
      have hnext : path ++ "." ++ name ≠ rootPath := by
        refine ne_rootPath_of_mem (c := '.') ?_ (by decide)
        simp
      simp only [Step.extend, if_neg h]
      rw [ih hnext, suffix, String.append_assoc, String.append_assoc, String.append_assoc]
    | index position =>
      have hnext : path ++ "[" ++ naturalText position ++ "]" ≠ rootPath := by
        refine ne_rootPath_of_mem (c := '[') ?_ (by decide)
        simp
      simp only [Step.extend]
      rw [ih hnext, suffix]
      simp only [String.append_assoc]

/-- The path that is built step by step is the text of the location. -/
theorem path_eq_rendering {location : Location} (h : location.Plain) :
    location.path = location.rendering := by
  cases location with
  | nil => simp [path, rendering, suffix]
  | cons step rest =>
    cases step with
    | key name =>
      have hname : name ≠ rootPath := (h name List.mem_cons_self).2.2.2
      show rest.foldl Step.extend (Step.extend rootPath (.key name)) = _
      simp only [Step.extend, if_pos]
      rw [foldl_extend hname, rendering]
    | index position =>
      have hnext : rootPath ++ "[" ++ naturalText position ++ "]" ≠ rootPath := by
        refine ne_rootPath_of_mem (c := '[') ?_ (by decide)
        simp
      show rest.foldl Step.extend (Step.extend rootPath (.index position)) = _
      simp only [Step.extend]
      rw [foldl_extend hnext, rendering, suffix]
      · simp only [String.append_assoc]
      · nofun

/-! ## One location for each text -/

/-- Two texts that go on after a run of characters of one sort have the same run. -/
theorem append_inj_of_stop {P : Char → Prop} {a b r s : List Char} (ha : ∀ c ∈ a, P c)
    (hb : ∀ c ∈ b, P c) (hr : ∀ c, r.head? = some c → ¬P c) (hs : ∀ c, s.head? = some c → ¬P c)
    (h : a ++ r = b ++ s) : a = b ∧ r = s := by
  induction a generalizing b with
  | nil =>
    cases b with
    | nil => exact ⟨rfl, h⟩
    | cons c b =>
      rw [List.nil_append] at h
      exact absurd (hb c List.mem_cons_self) (hr c (by rw [h]; rfl))
  | cons c a ih =>
    cases b with
    | nil =>
      rw [List.nil_append] at h
      exact absurd (ha c List.mem_cons_self) (hs c (by rw [← h]; rfl))
    | cons d b =>
      obtain ⟨rfl, htail⟩ := List.cons.inj h
      obtain ⟨rfl, hrest⟩ := ih (fun c hc => ha c (List.mem_cons_of_mem _ hc))
        (fun c hc => hb c (List.mem_cons_of_mem _ hc)) htail
      exact ⟨rfl, hrest⟩

/-- The steps after the first start with a point or a bracket. -/
theorem head?_suffix {location : Location} {c : Char} (h : location.suffix.toList.head? = some c) :
    ¬(c ≠ '.' ∧ c ≠ '[') := by
  cases location with
  | nil => simp [suffix] at h
  | cons step rest =>
    cases step with
    | key name =>
      simp [suffix] at h
      simp [← h]
    | index position =>
      simp [suffix] at h
      simp [← h]

theorem plainName_chars {name : String} (h : PlainName name) :
    ∀ c ∈ name.toList, c ≠ '.' ∧ c ≠ '[' :=
  fun _ hc => ⟨fun hdot => h.1 (hdot ▸ hc), fun hopen => h.2.1 (hopen ▸ hc)⟩

theorem exists_char_of_mem_naturalText {n : Nat} {c : Char} (h : c ∈ (naturalText n).toList) :
    ∃ d : Digit, d.char = c := by
  simp only [naturalText, String.toList_ofList, Digit.chars, List.mem_map] at h
  obtain ⟨d, _, hd⟩ := h
  exact ⟨d, hd⟩

theorem naturalText_chars (n : Nat) : ∀ c ∈ (naturalText n).toList, c ≠ ']' := by
  have hdigit : ∀ d : Digit, d.char ≠ ']' := by decide
  intro c hc
  obtain ⟨d, rfl⟩ := exists_char_of_mem_naturalText hc
  exact hdigit d

theorem naturalText_injective {m n : Nat} (h : (naturalText m).toList = (naturalText n).toList) :
    m = n := by
  simp only [naturalText, String.toList_ofList, Digit.chars] at h
  exact Digit.ofNat_injective (List.map_injective_iff.mpr (fun _ _ => Digit.char_injective) h)

/-- A name and what follows it can be told apart. -/
theorem name_inj {m n : String} (hm : PlainName m) (hn : PlainName n) {l k : Location}
    (h : m.toList ++ l.suffix.toList = n.toList ++ k.suffix.toList) :
    m = n ∧ l.suffix.toList = k.suffix.toList := by
  obtain ⟨hname, hrest⟩ := append_inj_of_stop (plainName_chars hm) (plainName_chars hn)
    (fun _ => head?_suffix) (fun _ => head?_suffix) h
  exact ⟨String.toList_inj.mp hname, hrest⟩

theorem suffix_injective {l k : Location} (hl : l.Plain) (hk : k.Plain)
    (h : l.suffix.toList = k.suffix.toList) : l = k := by
  induction l generalizing k with
  | nil =>
    cases k with
    | nil => rfl
    | cons step rest => cases step <;> simp [suffix] at h
  | cons step l ih =>
    cases k with
    | nil => cases step <;> simp [suffix] at h
    | cons step' k =>
      cases step with
      | key m =>
        cases step' with
        | key n =>
          simp only [suffix, String.toList_append, List.append_assoc] at h
          obtain ⟨rfl, hrest⟩ := name_inj (hl m List.mem_cons_self) (hk n List.mem_cons_self)
            (List.append_cancel_left h)
          rw [ih hl.tail hk.tail hrest]
        | index j => simp [suffix] at h
      | index i =>
        cases step' with
        | key n => simp [suffix] at h
        | index j =>
          simp only [suffix, String.toList_append, List.append_assoc] at h
          obtain ⟨hnat, hrest⟩ := append_inj_of_stop (naturalText_chars i) (naturalText_chars j)
            (by simp) (by simp) (List.append_cancel_left h)
          rw [naturalText_injective hnat, ih hl.tail hk.tail (List.append_cancel_left hrest)]

theorem rendering_eq_of_not_key {l : Location} (h : ∀ name rest, l ≠ .key name :: rest) :
    l.rendering = rootPath ++ l.suffix := by
  unfold rendering
  split
  · exact absurd rfl (h _ _)
  · rfl

theorem rendering_key_ne {name : String} (hname : PlainName name) {l k : Location}
    (hk : ∀ name rest, k ≠ .key name :: rest) :
    rendering (.key name :: l) ≠ k.rendering := by
  intro h
  rw [rendering_eq_of_not_key hk, rendering] at h
  have hchars := congrArg String.toList h
  rw [String.toList_append, String.toList_append] at hchars
  have hroot : ∀ c ∈ rootPath.toList, c ≠ '.' ∧ c ≠ '[' := by
    intro c hc
    rw [List.mem_singleton.mp hc]
    decide
  have heq := append_inj_of_stop (plainName_chars hname) hroot (fun _ => head?_suffix)
    (fun _ => head?_suffix) hchars
  exact hname.2.2.2 (String.toList_inj.mp heq.1)

/-- Locations with plain names have different texts. -/
theorem rendering_injective {l k : Location} (hl : l.Plain) (hk : k.Plain)
    (h : l.rendering = k.rendering) : l = k := by
  by_cases hlkey : ∃ name rest, l = .key name :: rest
  · obtain ⟨m, l, rfl⟩ := hlkey
    by_cases hkkey : ∃ name rest, k = .key name :: rest
    · obtain ⟨n, k, rfl⟩ := hkkey
      have hchars := congrArg String.toList h
      simp only [rendering, String.toList_append] at hchars
      obtain ⟨rfl, hrest⟩ := name_inj (hl m List.mem_cons_self) (hk n List.mem_cons_self) hchars
      rw [suffix_injective hl.tail hk.tail hrest]
    · exact absurd h (rendering_key_ne (hl m List.mem_cons_self)
        fun name rest heq => hkkey ⟨name, rest, heq⟩)
  · have hl' : ∀ name rest, l ≠ .key name :: rest := fun name rest heq => hlkey ⟨name, rest, heq⟩
    by_cases hkkey : ∃ name rest, k = .key name :: rest
    · obtain ⟨n, k, rfl⟩ := hkkey
      exact absurd h.symm (rendering_key_ne (hk n List.mem_cons_self) hl')
    · have hk' : ∀ name rest, k ≠ .key name :: rest :=
        fun name rest heq => hkkey ⟨name, rest, heq⟩
      rw [rendering_eq_of_not_key hl', rendering_eq_of_not_key hk'] at h
      have hchars := congrArg String.toList h
      rw [String.toList_append, String.toList_append] at hchars
      exact suffix_injective hl hk (List.append_cancel_left hchars)

end Location

end ChartDoc
