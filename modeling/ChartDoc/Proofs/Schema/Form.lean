/-
  What schemas say, by their keywords and without the walk.

  Model (read this before the theorems). A plain schema has a `Form`: the JSON type that it
  names and the keywords that belong to the type. `HasForm s form` says that the keywords of
  the JSON value `s` are those of the form; other keywords do not matter. A schema is `Formed`
  in a registry when it is plain, all schemas inside it are formed and its form is `Sound`, or
  when it is a reference to a registered definition that is not a reference itself.

  `Reaches schema v location q w` follows the properties and items that schemas declare down
  into the value `v`; it comes to the part `w`, which the schema `q` judges. A part is
  `Violated` at its location when it breaks the form of its schema by itself (`OwnFault`), and
  an object is violated at the location of each required property that it lacks.
-/
import ChartDoc.Proofs.Json.Parts
import ChartDoc.Validation.Walk

namespace ChartDoc

namespace Schema

/-- The forms of plain schemas. -/
inductive Form where
  | string (words : Option (List String))
  | number (minimum maximum : Option Json.Number)
  | boolean
  | array (item : Json) (least : Option Nat)
  | object (properties : Entries Json) (required : List String)

namespace Form

/-- The kind of the values that a form describes. -/
def kind : Form → Json.Kind
  | string _ => .string
  | number _ _ => .number
  | boolean => .boolean
  | array _ _ => .array
  | object _ _ => .object

/-- The keywords that belong to a form, besides the type. -/
def Keywords (s : Json) : Form → Prop
  | string words => s.get? "enum" = words.map .ofStrings
  | number minimum maximum =>
    s.get? "minimum" = minimum.map .number ∧ s.get? "maximum" = maximum.map .number
  | boolean => True
  | array item least =>
    s.get? "items" = some item ∧ s.get? "minItems" = least.map .ofNat ∧
      ∀ n ∈ least, Json.Fits n
  | object properties required =>
    s.get? "properties" = some (.object properties) ∧
      (s.get? "required" = some (.ofStrings required) ∨
        s.get? "required" = none ∧ required = [])

/-- The schemas inside a form. -/
def parts : Form → List Json
  | array item _ => [item]
  | object properties _ => properties.map Prod.snd
  | _ => []

end Form

/-- A schema with its form. -/
def HasForm (s : Json) (form : Form) : Prop :=
  s.get? "type" = some (.string form.kind.word) ∧ form.Keywords s

/-- A name that a path can contain without becoming ambiguous. -/
def PlainName (name : String) : Prop :=
  '.' ∉ name.toList ∧ '[' ∉ name.toList ∧ ']' ∉ name.toList ∧ name ≠ rootPath

instance (name : String) : Decidable (PlainName name) :=
  inferInstanceAs (Decidable (_ ∧ _))

/-- Bounds are in order, property names are plain and distinct, and only properties are
    required. -/
def Form.Sound : Form → Prop
  | .number (some minimum) (some maximum) => minimum.toBinary64 ≤ maximum.toBinary64
  | .object properties required =>
    properties.Distinct ∧ (∀ name ∈ properties.keys, PlainName name) ∧
      ∀ name ∈ required, name ∈ properties.keys
  | _ => True

/-- How a value breaks a form by itself, whatever its parts are. -/
inductive OwnFault : Form → Json → Fault → Prop where
  | wrongType {form : Form} {v : Json} (wrong : v.kind ≠ form.kind) :
    OwnFault form v (.wrongType v.kind form.kind.word)
  | unknownWord {words : List String} {text : String} (unknown : text ∉ words) :
    OwnFault (.string (some words)) (.string text) (.unknownWord text words)
  | belowMinimum {minimum n : Json.Number} {maximum : Option Json.Number}
    (below : n.toBinary64 < minimum.toBinary64) :
    OwnFault (.number (some minimum) maximum) (.number n)
      (.belowMinimum minimum.toBinary64 n.toBinary64)
  | aboveMaximum {maximum n : Json.Number} {minimum : Option Json.Number}
    (above : maximum.toBinary64 < n.toBinary64) :
    OwnFault (.number minimum (some maximum)) (.number n)
      (.aboveMaximum maximum.toBinary64 n.toBinary64)
  | tooFewItems {item : Json} {least : Nat} {vs : List Json} (few : vs.length < least) :
    OwnFault (.array item (some least)) (.array vs) (.tooFewItems least)

/-- `Child form v step p w`: one step into `v`, the form declares the schema `p` for the part
    `w`. -/
inductive Child : Form → Json → Step → Json → Json → Prop where
  | member {properties members : Entries Json} {required : List String} {name : String}
    {p w : Json} (declared : List.lookup name properties = some p)
    (given : List.lookup name members = some w) :
    Child (.object properties required) (.object members) (.key name) p w
  | item {item w : Json} {least : Option Nat} {vs : List Json} {position : Nat}
    (given : vs[position]? = some w) :
    Child (.array item least) (.array vs) (.index position) item w

theorem Child.isPart {form : Form} {step : Step} {v p w : Json} (h : Child form v step p w) :
    Json.IsPart w v := by
  cases h with
  | member _ given => exact .member (Entries.mem_of_lookup given)
  | item given => exact .item (List.mem_of_getElem? given)

theorem Child.mem_parts {form : Form} {step : Step} {v p w : Json} (h : Child form v step p w) :
    p ∈ form.parts := by
  cases h with
  | member declared _ => exact List.mem_map.mpr ⟨_, Entries.mem_of_lookup declared, rfl⟩
  | item _ => exact List.mem_singleton_self _

/-- A form requires a property of an object that the object lacks. -/
inductive Lacks : Form → Json → String → Prop where
  | member {properties members : Entries Json} {required : List String} {name : String}
    (requires : name ∈ required) (absent : List.lookup name members = none) :
    Lacks (.object properties required) (.object members) name

/-- An object has null under a property that its form does not require. -/
inductive NullMember : Form → Json → Prop where
  | member {properties members : Entries Json} {required : List String} {name : String} {p : Json}
    (declared : List.lookup name properties = some p) (optional : name ∉ required)
    (null : List.lookup name members = some .null) :
    NullMember (.object properties required) (.object members)

/-- An object has a member that its form does not declare. -/
inductive StrayMember : Form → Json → Prop where
  | member {properties members : Entries Json} {required : List String} {name : String}
    (given : name ∈ members.keys) (undeclared : name ∉ properties.keys) :
    StrayMember (.object properties required) (.object members)

end Schema

open Schema

namespace Registry

/-- The schemas that a registry supports. -/
inductive Formed (r : Registry) : Json → Prop where
  | plain {s : Json} {form : Form} (own : s.get? referenceKey = none) (has : HasForm s form)
    (sound : form.Sound) (parts : ∀ q ∈ form.parts, Formed r q) : Formed r s
  | reference {s d : Json} {target : String} (refers : s.get? referenceKey = some (.string target))
    (registered : r.get? (referenceName target) = some d) (own : d.get? referenceKey = none) :
    Formed r s

/-- Every definition of the registry is formed. -/
def AllFormed (r : Registry) : Prop :=
  ∀ name d, r.get? name = some d → r.Formed d

/-- `Reaches r schema v location q w`: from the value `v` and its schema one comes at a location
    to the part `w`, which the schema `q` judges. -/
inductive Reaches (r : Registry) : Json → Json → Location → Json → Json → Prop where
  | here (schema v : Json) : Reaches r schema v [] schema v
  | step {schema s v p w q u : Json} {form : Form} {step : Step} {location : Location}
    (resolved : r.resolve? schema = some s) (has : HasForm s form) (child : Child form v step p w)
    (rest : Reaches r p w location q u) : Reaches r schema v (step :: location) q u

/-- What is wrong with a value under a schema, and where. -/
inductive Violated (r : Registry) (schema v : Json) : Location → Fault → Prop where
  | own {location : Location} {q w s : Json} {form : Form} {fault : Fault}
    (reached : r.Reaches schema v location q w) (resolved : r.resolve? q = some s)
    (has : HasForm s form) (broken : OwnFault form w fault) : Violated r schema v location fault
  | missing {location : Location} {q w s : Json} {form : Form} {name : String}
    (reached : r.Reaches schema v location q w) (resolved : r.resolve? q = some s)
    (has : HasForm s form) (lacks : Lacks form w name) :
    Violated r schema v (location ++ [.key name]) (.missingField name)

/-- Somewhere in a value, a property that its schema declares and does not require is null. -/
def HoldsNull (r : Registry) (schema v : Json) : Prop :=
  ∃ location q w s form, r.Reaches schema v location q w ∧ r.resolve? q = some s ∧
    HasForm s form ∧ NullMember form w

/-- Somewhere in a value, an object has a member that its schema does not declare. -/
def HoldsStray (r : Registry) (schema v : Json) : Prop :=
  ∃ location q w s form, r.Reaches schema v location q w ∧ r.resolve? q = some s ∧
    HasForm s form ∧ StrayMember form w

end Registry

end ChartDoc
