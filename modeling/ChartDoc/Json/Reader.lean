/-
  Reading JSON text, strictly: nothing but spaces around the value, no trailing commas, no
  comments. A key that occurs again in an object replaces the value and keeps the place.
  Arrays and objects may be nested to `depthLimit`; a deeper text is refused.

  The reader is a machine that takes one token at a time. Its state holds the containers that
  are still open, innermost first, and what may come next.
-/
import ChartDoc.Json.Token

namespace ChartDoc

namespace Json

/-- The greatest number of arrays and objects that may be open at once. -/
def depthLimit : Nat := 127

/-- A container that waits for a value. -/
inductive Frame where
  /-- An array with the items read so far, the last one first. -/
  | array (items : List Json)
  /-- An object with the members read so far and the key of the next one. -/
  | object (members : Entries Json) (key : String)

/-- What may come next, inside the given containers. -/
inductive Reading where
  /-- A value. -/
  | value (frames : List Frame)
  /-- The first item of an array, or its end. -/
  | firstItem (frames : List Frame)
  /-- A comma and a further item, or the end of the array. -/
  | nextItem (items : List Json) (frames : List Frame)
  /-- The first key of an object, or its end. -/
  | firstKey (frames : List Frame)
  /-- A key. -/
  | key (members : Entries Json) (frames : List Frame)
  /-- The colon after a key. -/
  | colon (members : Entries Json) (key : String) (frames : List Frame)
  /-- A comma and a further member, or the end of the object. -/
  | nextMember (members : Entries Json) (frames : List Frame)
  /-- Nothing: the value is complete. -/
  | done (value : Json)

namespace Reading

/-- Hands a complete value to the innermost open container. -/
def complete (v : Json) : List Frame → Reading
  | [] => done v
  | .array items :: frames => nextItem (v :: items) frames
  | .object members k :: frames => nextMember (members.insert k v) frames

/-- The state at the start of a value. -/
def start (frames : List Frame) : Token → Option Reading
  | .scalar v => some (complete v frames)
  | .openBracket => if frames.length < depthLimit then some (firstItem frames) else none
  | .openBrace => if frames.length < depthLimit then some (firstKey frames) else none
  | _ => none

/-- The state after a token, unless the token may not come next. -/
def step : Reading → Token → Option Reading
  | value frames, t => start frames t
  | firstItem frames, .closeBracket => some (complete (.array []) frames)
  | firstItem frames, t => start (.array [] :: frames) t
  | nextItem items frames, .comma => some (value (.array items :: frames))
  | nextItem items frames, .closeBracket => some (complete (.array items.reverse) frames)
  | firstKey frames, .closeBrace => some (complete (.object []) frames)
  | firstKey frames, .scalar (.string k) => some (colon [] k frames)
  | key members frames, .scalar (.string k) => some (colon members k frames)
  | colon members k frames, .colon => some (value (.object members k :: frames))
  | nextMember members frames, .comma => some (key members frames)
  | nextMember members frames, .closeBrace => some (complete (.object members) frames)
  | _, _ => none

/-- The value, if it is complete. -/
def value? : Reading → Option Json
  | done v => some v
  | _ => none

end Reading

/-- The value that a sequence of tokens stands for. -/
def ofTokens? (tokens : List Token) : Option Json :=
  (tokens.foldlM Reading.step (.value [])).bind Reading.value?

/-- The value that a text stands for. -/
def ofText? (text : String) : Option Json :=
  (tokens? text.toList).bind ofTokens?

/-- The value that a text in UTF-8 stands for; invalid bytes make the text malformed. -/
def ofBytes? (bytes : List UInt8) : Option Json :=
  (String.fromUTF8? ⟨bytes.toArray⟩).bind ofText?

end Json

end ChartDoc
