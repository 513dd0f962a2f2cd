/-
  What is wrong with a document, and where. A violation is a location and a fault; both are
  data, and their texts are made in one place each. An issue is what a reader sees: the path
  and the message. A refusal is the list of all issues of a document.
-/
import ChartDoc.Json.Basic

namespace ChartDoc

/-- One step from a value to a part of it. -/
inductive Step where
  | key (name : String)
  | index (position : Nat)
deriving DecidableEq

/-- The steps from a whole document to a part of it, outermost first. -/
abbrev Location := List Step

/-- The path of the whole document. -/
def rootPath : String := "$"

/-- The path one step further. A name directly under the whole document stands alone. -/
def Step.extend (path : String) : Step → String
  | key name => if path = rootPath then name else path ++ "." ++ name
  | index position => path ++ "[" ++ naturalText position ++ "]"

/-- The path of a location. -/
def Location.path (location : Location) : String :=
  location.foldl Step.extend rootPath

/-- What can be wrong at a location. -/
inductive Fault where
  | malformedText
  | unregisteredType (name : String)
  | unregisteredReference
  | tooFewItems (least : Nat)
  | unknownWord (given : String) (allowed : List String)
  | belowMinimum (minimum given : Binary64)
  | aboveMaximum (maximum given : Binary64)
  | wrongType (found : Json.Kind) (expected : String)
  | missingField (name : String)
  | noDatasets
  | noMarks
  | opacityOutOfRange (given : Binary64)
  | negativeWidth (given : Binary64)

/-- The message of a fault. -/
def Fault.message : Fault → String
  | malformedText => "malformed JSON"
  | unregisteredType name => "type '" ++ name ++ "' is not registered"
  | unregisteredReference => "schema reference is not registered"
  | tooFewItems least => "must contain at least " ++ naturalText least ++ " item(s)"
  | unknownWord given allowed =>
    "unknown variant `" ++ given ++ "`, expected one of " ++
      ", ".intercalate (allowed.map fun word => "`" ++ word ++ "`")
  | belowMinimum minimum given => "must be >= " ++ minimum.plain ++ ", got " ++ given.plain
  | aboveMaximum maximum given => "must be <= " ++ maximum.plain ++ ", got " ++ given.plain
  | wrongType found expected => "invalid type: " ++ found.word ++ ", expected " ++ expected
  | missingField name => "missing field `" ++ name ++ "`"
  | noDatasets => "must contain at least one dataset"
  | noMarks => "must contain at least one mark"
  | opacityOutOfRange given => "must be between 0 and 1, got " ++ given.plain
  | negativeWidth given => "must be >= 0, got " ++ given.plain

/-- A fault at a location. -/
structure Violation where
  location : Location
  fault : Fault

/-- A path and a message. -/
structure Issue where
  path : String
  message : String
deriving DecidableEq

/-- The issue that a violation is shown as. -/
def Violation.issue (v : Violation) : Issue :=
  ⟨v.location.path, v.fault.message⟩

/-- The text of an issue. -/
def Issue.text (i : Issue) : String :=
  i.path ++ ": " ++ i.message

/-- The issues for which a document is refused. -/
structure Refusal where
  issues : List Issue
deriving DecidableEq

namespace Refusal

/-- The refusal for a list of violations. -/
def ofViolations (vs : List Violation) : Refusal :=
  ⟨vs.map Violation.issue⟩

/-- The message of a refusal. -/
def message (r : Refusal) : String :=
  "invalid chart IR: " ++ "; ".intercalate (r.issues.map Issue.text)

/-- The paths of the issues, in order. -/
def paths (r : Refusal) : List String :=
  r.issues.map Issue.path

end Refusal

end ChartDoc
