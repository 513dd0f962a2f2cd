/-
  The walk of a value along a schema. Every violation is found, in the order in which the
  schema declares properties; members that the schema does not declare are ignored.

  A schema is any JSON value. What it asks of a value is read off in one place, `Demand.ofSchema`:
  keywords that are missing or have an unexpected form ask for nothing. The walk recurs on the
  value, so it ends whatever the references in the schema are.
-/
import ChartDoc.Schema.Registry
import ChartDoc.Validation.Issue

namespace ChartDoc

/-- What a schema asks of a value. -/
inductive Demand where
  | anything
  | object (properties : Entries Json) (required : List String)
  | array (least : Option Nat) (items : Option Json)
  | string (allowed : Option (List String))
  | number (minimum maximum : Option Binary64)
  | boolean
  /-- A type that no value has. -/
  | unknown (type : String)

namespace Demand

/-- The strings in an array that a keyword holds. -/
def strings? (schema : Json) (key : String) : Option (List String) :=
  ((schema.get? key).bind Json.items?).map (List.filterMap Json.string?)

/-- What a schema asks for, by its own keywords. -/
def ofSchema (schema : Json) : Demand :=
  match (schema.get? "type").bind Json.string? with
  | none => anything
  | some "object" =>
    object (((schema.get? "properties").bind Json.members?).getD [])
      ((strings? schema "required").getD [])
  | some "array" => array ((schema.get? "minItems").bind Json.nat?) (schema.get? "items")
  | some "string" => string (strings? schema "enum")
  | some "number" =>
    number ((schema.get? "minimum").bind Json.binary64?)
      ((schema.get? "maximum").bind Json.binary64?)
  | some "boolean" => boolean
  | some type => unknown type

/-- The name of the type that a demand asks for. -/
def typeName : Demand → String
  | anything => "anything"
  | object _ _ => "object"
  | array _ _ => "array"
  | string _ => "string"
  | number _ _ => "number"
  | boolean => "boolean"
  | unknown type => type

/-- The fault of an array with fewer items than asked for. -/
def lengthFaults (least : Option Nat) (length : Nat) : List Fault :=
  match least with
  | some least => if length < least then [.tooFewItems least] else []
  | none => []

/-- The fault of a string that is not one of the words asked for. -/
def wordFaults (allowed : Option (List String)) (s : String) : List Fault :=
  match allowed with
  | some words => if s ∈ words then [] else [.unknownWord s words]
  | none => []

/-- The faults of a number outside the bounds asked for, the lower bound first. -/
def boundFaults (minimum maximum : Option Binary64) (x : Binary64) : List Fault :=
  (match minimum with
    | some m => if x < m then [.belowMinimum m x] else []
    | none => []) ++
  (match maximum with
    | some m => if m < x then [.aboveMaximum m x] else []
    | none => [])

end Demand

namespace Registry

/-- Faults as violations at one location. -/
def located (here : Location) (faults : List Fault) : List Violation :=
  faults.map fun fault => ⟨here, fault⟩

mutual

/-- The violations of a value at a location under a schema. -/
def violations (r : Registry) (schema : Json) (here : Location) (v : Json) : List Violation :=
  match (r.resolve? schema).map Demand.ofSchema, v with
  | none, _ => located here [.unregisteredReference]
  | some .anything, _ => []
  | some (.object properties required), .object members =>
    properties.flatMap fun property =>
      match memberViolations r property.2 (here ++ [.key property.1]) property.1 members with
      | some found => found
      | none =>
        if property.1 ∈ required then
          located (here ++ [.key property.1]) [.missingField property.1]
        else []
  | some (.array least items), .array vs =>
    located here (Demand.lengthFaults least vs.length) ++
      match items with
      | some schema => itemViolations r schema here 0 vs
      | none => []
  | some (.string allowed), .string s => located here (Demand.wordFaults allowed s)
  | some (.number minimum maximum), .number n =>
    located here (Demand.boundFaults minimum maximum n.toBinary64)
  | some .boolean, .bool _ => []
  | some demand, v => located here [.wrongType v.kind demand.typeName]
termination_by structural v

/-- The violations of the items of an array from a position on. -/
def itemViolations (r : Registry) (schema : Json) (here : Location) (position : Nat)
    (vs : List Json) : List Violation :=
  match vs with
  | [] => []
  | v :: vs =>
    violations r schema (here ++ [.index position]) v ++
      itemViolations r schema here (position + 1) vs
termination_by structural vs

/-- The violations of the first member under a name, if there is such a member. -/
def memberViolations (r : Registry) (schema : Json) (here : Location) (name : String)
    (members : List (String × Json)) : Option (List Violation) :=
  match members with
  | [] => none
  | (key, v) :: members =>
    if name = key then some (violations r schema here v)
    else memberViolations r schema here name members
termination_by structural members

end

/-- The violations of a value under a registered definition. -/
def check (r : Registry) (root : String) (v : Json) : List Violation :=
  match r.get? root with
  | some schema => r.violations schema [] v
  | none => [⟨[], .unregisteredType root⟩]

theorem memberViolations_eq (r : Registry) (schema : Json) (here : Location) (name : String)
    (members : Entries Json) :
    r.memberViolations schema here name members =
      (List.lookup name members).map (r.violations schema here) := by
  induction members with
  | nil => rfl
  | cons member members ih =>
    obtain ⟨key, v⟩ := member
    rw [Entries.lookup_cons, memberViolations]
    split
    · rfl
    · exact ih

end Registry

end ChartDoc
