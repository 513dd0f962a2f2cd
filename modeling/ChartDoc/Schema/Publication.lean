/-
  Publishing a registry as one schema document. The document holds every definition and refers
  to one of them as its root. It is only published when the root is registered and no
  definition refers to a name that is not; otherwise the first such reference is reported, in
  the order of definitions, and inside a definition depth first with an object's own reference
  before those of its members.
-/
import ChartDoc.Schema.Chart

namespace ChartDoc

/-- What a published schema document says about itself. -/
structure Header where
  /-- The definition that documents are checked against. -/
  root : String
  id : String
  title : String
  description : String
deriving DecidableEq

/-- The header of the schema of chart documents. -/
def Header.chart : Header where
  root := chartRoot
  id := "urn:chartir:schema:chartir"
  title := "Chart IR"
  description := "A non-polymorphic intermediate representation for ECharts configurations."

/-- The dialect that published schemas declare. -/
def schemaDialect : String := "https://json-schema.org/draft/2020-12/schema"

/-- Why a registry is not published. -/
inductive PublicationError where
  | unknownRoot (root : String)
  /-- A definition refers to a name that is not registered. -/
  | danglingReference (definition target : String)
deriving DecidableEq

/-- The message of an error. -/
def PublicationError.message : PublicationError → String
  | unknownRoot root => "root type '" ++ root ++ "' is not registered"
  | danglingReference definition target =>
    "definition '" ++ definition ++ "' references unregistered type '" ++ target ++ "'"

namespace Json

/-- The reference that the members of an object make themselves, if any. -/
def ownReference? (members : Entries Json) : Option String :=
  (List.lookup referenceKey members).bind string?

mutual

/-- The texts of all references in a value, depth first, an object's own one first. -/
def references : Json → List String
  | array items => itemReferences items
  | object members => (ownReference? members).toList ++ memberReferences members
  | _ => []
termination_by structural v => v

/-- The texts of all references in the items of an array. -/
def itemReferences : List Json → List String
  | [] => []
  | v :: items => references v ++ itemReferences items
termination_by structural items => items

/-- The texts of all references in the members of an object. -/
def memberReferences : List (String × Json) → List String
  | [] => []
  | (_, v) :: members => references v ++ memberReferences members
termination_by structural members => members

end

end Json

namespace Registry

/-- The first name in a value's references that is not registered. -/
def danglingName? (r : Registry) (v : Json) : Option String :=
  (v.references.map referenceName).find? fun name => !r.contains name

/-- The first reference to a name that is not registered, with the definition that makes it. -/
def dangling? (r : Registry) : Option (String × String) :=
  r.definitions.findSome? fun entry => (r.danglingName? entry.2).map fun name => (entry.1, name)

/-- The schema document of a registry, whether or not its references are registered. -/
def schemaDocument (r : Registry) (header : Header) : Json :=
  .object
    [("$schema", .string schemaDialect), ("$id", .string header.id),
     ("title", .string header.title), ("description", .string header.description),
     (referenceKey, .string (referenceMark ++ header.root)), ("$defs", .object r.definitions)]

/-- Publishes a registry. -/
def publish (r : Registry) (header : Header) : Except PublicationError Json :=
  if r.contains header.root then
    match r.dangling? with
    | some (definition, target) => .error (.danglingReference definition target)
    | none => .ok (r.schemaDocument header)
  else .error (.unknownRoot header.root)

end Registry

/-- The schema document of chart documents. -/
def chartSchema : Except PublicationError Json :=
  Registry.chart.publish .chart

end ChartDoc
