/-
  The tokens of JSON text, and how a text is cut into them. A text with a character outside all
  tokens has no tokens at all.

  Strings. A string is read in two steps: first its pieces, where an escape with four
  hexadecimal digits is a unit of UTF-16, then its characters, where two surrogate units next
  to each other make one character and a surrogate on its own makes the text malformed.

  Numbers. A number starts as a literal of `ChartDoc.Literal`; JSON then asks for no plus sign, for
  digits on both sides of a point, and for no leading zero.
-/
import ChartDoc.Json.Basic
import ChartDoc.Text.Hex

namespace ChartDoc

namespace Json

/-- A token of JSON text. -/
inductive Token where
  | openBracket
  | closeBracket
  | openBrace
  | closeBrace
  | colon
  | comma
  /-- A value without items or members. -/
  | scalar (value : Json)

/-! ## Strings -/

/-- A piece of a written string. -/
inductive Piece where
  | char (c : Char)
  /-- A unit of UTF-16, written as an escape. -/
  | unit (n : Nat)

/-- The character of an escape with one letter. -/
def escaped? : Char → Option Char
  | '"' => some '"'
  | '\\' => some '\\'
  | '/' => some '/'
  | 'b' => some '\x08'
  | 'f' => some '\x0c'
  | 'n' => some '\n'
  | 'r' => some '\r'
  | 't' => some '\t'
  | _ => none

/-- The pieces of a string up to its closing quote, and what follows the quote. -/
def scanPieces : List Char → Option (List Piece × List Char)
  | [] => none
  | c :: cs =>
    if c = '"' then some ([], cs)
    else if c = '\\' then
      match cs with
      | [] => none
      | 'u' :: a :: b :: c :: d :: cs => do
        let n ← Text.Hex.number? [a, b, c, d]
        let (pieces, rest) ← scanPieces cs
        return (.unit n :: pieces, rest)
      | e :: cs => do
        let c ← escaped? e
        let (pieces, rest) ← scanPieces cs
        return (.char c :: pieces, rest)
    else if c.toNat < 0x20 then none
    else do
      let (pieces, rest) ← scanPieces cs
      return (.char c :: pieces, rest)

/-- Whether a unit is the first of a surrogate pair. -/
def isHighSurrogate (n : Nat) : Bool :=
  0xD800 ≤ n && n < 0xDC00

/-- Whether a unit is the second of a surrogate pair. -/
def isLowSurrogate (n : Nat) : Bool :=
  0xDC00 ≤ n && n < 0xE000

/-- The characters that pieces stand for. -/
def joinPieces? : List Piece → Option (List Char)
  | [] => some []
  | .char c :: pieces => (joinPieces? pieces).map (c :: ·)
  | .unit high :: .unit low :: pieces =>
    if isHighSurrogate high then
      if isLowSurrogate low then
        (joinPieces? pieces).map
          (Char.ofNat (0x10000 + (high - 0xD800) * 0x400 + (low - 0xDC00)) :: ·)
      else none
    else if isLowSurrogate high then none
    else (joinPieces? (.unit low :: pieces)).map (Char.ofNat high :: ·)
  | .unit n :: pieces =>
    if isHighSurrogate n || isLowSurrogate n then none
    else (joinPieces? pieces).map (Char.ofNat n :: ·)

/-- The pieces and the rest together are shorter than the text. -/
theorem length_lt_of_scanPieces {cs rest : List Char} {pieces : List Piece}
    (h : scanPieces cs = some (pieces, rest)) : rest.length < cs.length := by
  fun_induction scanPieces cs generalizing pieces with
  | case1 => simp at h
  | case2 cs =>
    simp only [Option.some.injEq, Prod.mk.injEq] at h
    simp [h.2]
  | case3 => simp at h
  | case4 _ a b c d cs ih =>
    simp only [Option.bind_eq_bind, Option.bind_eq_some_iff, Option.pure_def, Option.some.injEq,
      Prod.mk.injEq, Prod.exists] at h
    obtain ⟨_, _, _, _, hrec, _, rfl⟩ := h
    have := ih hrec
    simp only [List.length_cons]
    omega
  | case5 _ e cs _ ih =>
    simp only [Option.bind_eq_bind, Option.bind_eq_some_iff, Option.pure_def, Option.some.injEq,
      Prod.mk.injEq, Prod.exists] at h
    obtain ⟨_, _, _, _, hrec, _, rfl⟩ := h
    have := ih hrec
    simp only [List.length_cons]
    omega
  | case6 => simp at h
  | case7 c cs _ _ _ ih =>
    simp only [Option.bind_eq_bind, Option.bind_eq_some_iff, Option.pure_def, Option.some.injEq,
      Prod.mk.injEq, Prod.exists] at h
    obtain ⟨_, _, hrec, _, rfl⟩ := h
    have := ih hrec
    simp only [List.length_cons]
    omega

/-! ## Numbers -/

/-- Whether a literal is written as JSON asks. -/
def isStrict (l : Literal) : Bool :=
  match l.sign, l.fraction, l.whole with
  | some .plus, _, _ => false
  | _, some [], _ => false
  | _, _, [] => false
  | _, _, [_] => true
  | _, _, first :: _ => first.val ≠ 0

/-! ## Tokens -/

/-- Whether a character may stand between tokens. -/
def isSpace (c : Char) : Bool :=
  c == ' ' || c == '\t' || c == '\n' || c == '\r'

/-- The token at the front of a text, and what follows it. -/
def scanToken (cs : List Char) : Option (Token × List Char) :=
  match cs with
  | '[' :: rest => some (.openBracket, rest)
  | ']' :: rest => some (.closeBracket, rest)
  | '\x7b' :: rest => some (.openBrace, rest)
  | '\x7d' :: rest => some (.closeBrace, rest)
  | ':' :: rest => some (.colon, rest)
  | ',' :: rest => some (.comma, rest)
  | 'n' :: 'u' :: 'l' :: 'l' :: rest => some (.scalar .null, rest)
  | 't' :: 'r' :: 'u' :: 'e' :: rest => some (.scalar (.bool true), rest)
  | 'f' :: 'a' :: 'l' :: 's' :: 'e' :: rest => some (.scalar (.bool false), rest)
  | '"' :: rest =>
    match scanPieces rest with
    | some (pieces, after) =>
      (joinPieces? pieces).map fun text => (.scalar (.string (String.ofList text)), after)
    | none => none
  | _ =>
    match Literal.scan cs with
    | some (l, rest) =>
      if isStrict l then (Number.ofLiteral? l).map fun n => (.scalar (.number n), rest) else none
    | none => none

/-- A token has at least one character. -/
theorem length_lt_of_scanToken {cs rest : List Char} {t : Token}
    (h : scanToken cs = some (t, rest)) : rest.length < cs.length := by
  unfold scanToken at h
  split at h
  case h_10 =>
    split at h
    · rename_i hs
      simp only [Option.map_eq_some_iff, Prod.mk.injEq] at h
      obtain ⟨_, _, _, rfl⟩ := h
      have := length_lt_of_scanPieces hs
      simp only [List.length_cons]
      omega
    · simp at h
  case h_11 =>
    split at h
    · rename_i hs
      split at h
      · simp only [Option.map_eq_some_iff, Prod.mk.injEq] at h
        obtain ⟨_, _, _, rfl⟩ := h
        exact Literal.length_lt_of_scan hs
      · simp at h
    · simp at h
  all_goals
    simp only [Option.some.injEq, Prod.mk.injEq] at h
    simp only [h.2, List.length_cons]
    omega

/-- The tokens of a text. -/
def tokens? (cs : List Char) : Option (List Token) :=
  match cs with
  | [] => some []
  | c :: rest =>
    if isSpace c then tokens? rest
    else
      match _found : scanToken (c :: rest) with
      | some (t, after) => (tokens? after).map (t :: ·)
      | none => none
termination_by cs.length
decreasing_by
  · simp
  · exact length_lt_of_scanToken _found

end Json

end ChartDoc
