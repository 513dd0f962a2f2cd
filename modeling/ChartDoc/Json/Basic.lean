/-
  JSON values. An object keeps its members in order; readers of this library never put a key
  into an object twice, and `lookup` takes the first entry of a key.

  A number is either a whole number within the range of 64-bit machine integers or a finite
  binary floating point number. The two kinds stay apart: `1` and `1.0` are different values,
  although both stand for the same number.
-/
import ChartDoc.Entries
import ChartDoc.Binary64.Numeral

namespace ChartDoc

/-- The integers of at most 64 bits, signed below zero and unsigned from zero on. -/
def Json.Fits (n : Int) : Prop :=
  -0x8000000000000000 ≤ n ∧ n ≤ 0xFFFFFFFFFFFFFFFF

instance (n : Int) : Decidable (Json.Fits n) :=
  inferInstanceAs (Decidable (_ ∧ _))

/-- A JSON number. -/
inductive Json.Number where
  | whole (value : Int) (fits : Json.Fits value)
  | float (value : Binary64.Finite)
deriving DecidableEq

/-- A JSON value. -/
inductive Json where
  | null
  | bool (value : Bool)
  | number (value : Json.Number)
  | string (value : String)
  | array (items : List Json)
  | object (members : List (String × Json))

namespace Json

instance : Inhabited Json :=
  ⟨null⟩

/-! ## Numbers -/

namespace Number

/-- How numbers are written in JSON text: an exponent below `0.00001` and from `1e+16` on. -/
def style : Binary64.NumeralStyle where
  tie := .toEven
  positional power := -5 ≤ power ∧ power ≤ 15
  wholePoint := true
  exponentPlus := true

/-- The number in binary floating point. -/
def toBinary64 : Number → Binary64
  | whole n _ => .ofInt n
  | float x => .finite x

/-- The text of a number. -/
def text : Number → String
  | whole n _ => integerText n
  | float x => x.text style

/-- Equality of numbers of the same kind; the two zeros of floating point are equal. -/
def same : Number → Number → Bool
  | whole m _, whole n _ => m == n
  | float x, float y => Binary64.finite x == Binary64.finite y
  | _, _ => false

/-- Whether a literal is written as a whole number. Zero with a minus sign is not, because whole
    numbers have one zero only. -/
def isWhole (l : Literal) : Bool :=
  l.fraction.isNone && l.exponent.isNone && !(l.negative && l.coefficient == 0)

/-- The integer that the sign and the digits of a literal stand for. -/
def integer (l : Literal) : Int :=
  if l.negative then -(l.coefficient : Int) else l.coefficient

/-- The number that a literal stands for in JSON: a whole number if it is written as one and
    fits, otherwise a float. There is none for a literal beyond the greatest float. -/
def ofLiteral? (l : Literal) : Option Number :=
  if h : isWhole l = true ∧ Fits (integer l) then
    some (whole (integer l) h.2)
  else l.value.finite?.map float

end Number

/-! ## Building values -/

/-- A floating point number as a value; NaN and the infinities have none and become null. -/
def ofBinary64 (x : Binary64) : Json :=
  match x with
  | .finite x => number (.float x)
  | _ => null

/-- A count as a value. A count too great for a JSON number is written as text, so that no two
    counts are written alike. -/
def ofNat (n : Nat) : Json :=
  if h : Fits n then number (.whole n h) else string (naturalText n)

/-- Texts as an array. -/
def ofStrings (texts : List String) : Json :=
  array (texts.map string)

/-! ## Reading values -/

/-- The kinds of values. -/
inductive Kind where
  | null
  | boolean
  | number
  | string
  | array
  | object
deriving DecidableEq

/-- The name of a kind. -/
def Kind.word : Kind → String
  | null => "null"
  | boolean => "boolean"
  | number => "number"
  | string => "string"
  | array => "array"
  | object => "object"

/-- The kind of a value. -/
def kind : Json → Kind
  | null => .null
  | bool _ => .boolean
  | number _ => .number
  | string _ => .string
  | array _ => .array
  | object _ => .object

/-- The text of a string. -/
def string? : Json → Option String
  | string s => some s
  | _ => none

/-- The truth value of a boolean. -/
def bool? : Json → Option Bool
  | bool b => some b
  | _ => none

/-- The number of a number value in binary floating point. -/
def binary64? : Json → Option Binary64
  | number n => some n.toBinary64
  | _ => none

/-- The natural number of a whole number that is not negative. -/
def nat? : Json → Option Nat
  | number (.whole n _) => if 0 ≤ n then some n.toNat else none
  | _ => none

/-- The items of an array. -/
def items? : Json → Option (List Json)
  | array items => some items
  | _ => none

/-- The members of an object. -/
def members? : Json → Option (Entries Json)
  | object members => some members
  | _ => none

/-- The value under a key of an object. -/
def get? (key : String) (value : Json) : Option Json :=
  value.members?.bind (List.lookup key)

/-! ## Equality -/

mutual

/-- Equality of values: arrays by item, objects by key in any order, numbers by `Number.same`. -/
def same : Json → Json → Bool
  | null, null => true
  | bool a, bool b => a == b
  | number m, number n => m.same n
  | string s, string t => s == t
  | array xs, array ys => sameItems xs ys
  | object xs, object ys => xs.length == ys.length && sameMembers xs ys
  | _, _ => false
termination_by structural x => x

/-- Equality of lists of values, item by item. -/
def sameItems : List Json → List Json → Bool
  | [], [] => true
  | x :: xs, y :: ys => same x y && sameItems xs ys
  | _, _ => false
termination_by structural xs => xs

/-- Whether the second list has, under each key of the first, an equal value. -/
def sameMembers : List (String × Json) → List (String × Json) → Bool
  | [], _ => true
  | (key, x) :: xs, ys =>
    (match List.lookup key ys with
      | some y => same x y
      | none => false) && sameMembers xs ys
termination_by structural xs => xs

end

theorem string?_eq_some_iff {v : Json} {s : String} : v.string? = some s ↔ v = string s := by
  cases v <;> simp [string?]

theorem bool?_eq_some_iff {v : Json} {b : Bool} : v.bool? = some b ↔ v = bool b := by
  cases v <;> simp [bool?]

theorem items?_eq_some_iff {v : Json} {items : List Json} :
    v.items? = some items ↔ v = array items := by
  cases v <;> simp [items?]

theorem members?_eq_some_iff {v : Json} {members : Entries Json} :
    v.members? = some members ↔ v = object members := by
  cases v <;> simp [members?]

end Json

end ChartDoc
