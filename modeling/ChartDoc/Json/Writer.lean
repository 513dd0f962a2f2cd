/-
  Writing JSON text in compact form: no spaces, members and items in order. Inside strings the
  quote, the backslash and the characters below U+0020 are escaped, and every other character
  is written as it is.
-/
import ChartDoc.Json.Basic
import ChartDoc.Text.Hex

namespace ChartDoc

namespace Json

/-- The characters that a character of a string is written as. -/
def escape (c : Char) : List Char :=
  if c = '"' then ['\\', '"']
  else if c = '\\' then ['\\', '\\']
  else if c = '\x08' then ['\\', 'b']
  else if c = '\x0c' then ['\\', 'f']
  else if c = '\n' then ['\\', 'n']
  else if c = '\r' then ['\\', 'r']
  else if c = '\t' then ['\\', 't']
  else if c.toNat < 0x20 then '\\' :: 'u' :: Text.Hex.digits 4 c.toNat
  else [c]

/-- A string between quotes. -/
def quote (s : String) : String :=
  String.ofList ('"' :: (s.toList.flatMap escape ++ ['"']))

/-- The text of a truth value. -/
def boolText (b : Bool) : String :=
  if b then "true" else "false"

mutual

/-- The compact text of a value. -/
def text : Json → String
  | null => "null"
  | bool b => boolText b
  | number n => n.text
  | string s => quote s
  | array items => "[" ++ ",".intercalate (itemTexts items) ++ "]"
  | object members => "\x7b" ++ ",".intercalate (memberTexts members) ++ "\x7d"
termination_by structural v => v

/-- The compact texts of the items of an array. -/
def itemTexts : List Json → List String
  | [] => []
  | v :: items => text v :: itemTexts items
termination_by structural items => items

/-- The compact texts of the members of an object. -/
def memberTexts : List (String × Json) → List String
  | [] => []
  | (key, v) :: members => (quote key ++ ":" ++ text v) :: memberTexts members
termination_by structural members => members

end

end Json

end ChartDoc
