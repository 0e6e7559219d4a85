import LayeredSettings.Json.Tree
import LayeredSettings.Decimal.Numeral

/-!
Lexical elements of JSON text.

A number is the longest run of characters that numbers are made of, and a word the longest run of
letters. Two values are never adjacent in JSON, so nothing that a shorter element would allow is
lost.
-/

namespace LayeredSettings.Json

inductive Token
  | openArray
  | closeArray
  | openObject
  | closeObject
  | comma
  | colon
  | null
  | bool (b : Bool)
  | unsigned (n : UInt64)
  | negative (n : Int64)
  | float (x : Float)
  | string (s : String)

def isBlank (c : Char) : Bool := c = ' ' || c = '\t' || c = '\n' || c = '\r'

def isNumeric (c : Char) : Bool :=
  Decimal.isDigit c || c = '-' || c = '+' || c = '.' || c = 'e' || c = 'E'

def isWordly (c : Char) : Bool := 'a' ≤ c && c ≤ 'z'

/-- Adds digits to a significand as long as it fits 64 bits; the digits left over follow. -/
def accumulate (significand : Nat) : List Char → Nat × List Char
  | [] => (significand, [])
  | c :: cs =>
    let next := 10 * significand + (c.toNat - '0'.toNat)
    if next < UInt64.size then accumulate next cs else (significand, c :: cs)

/-- A whole number that fits is kept as it is, except that a negative zero is a float. -/
def Token.ofWhole (isNegative : Bool) (n : UInt64) : Token :=
  if isNegative = false then .unsigned n
  else if n = 0 ∨ 0x8000000000000000 < n then .float (-n.toFloat)
  else .negative (-n.toInt64)

/-- A number: no leading zeros, digits on both sides of the point. Digits of the significand beyond
64 bits only count towards the exponent. -/
def Token.ofNumber? (cs : List Char) : Option Token := do
  let (isNegative, cs) := match cs with
    | '-' :: cs => (true, cs)
    | cs => (false, cs)
  let parts ← Decimal.Parts.read? cs
  guard (parts.whole.length = 1 ∨ parts.whole.head?.any (· ≠ '0'))
  guard (parts.fraction.all (!·.isEmpty))
  let (significand, dropped) := accumulate 0 parts.whole
  if dropped.isEmpty ∧ parts.fraction.isNone ∧ parts.exponent.isNone then
    return .ofWhole isNegative (UInt64.ofNat significand)
  let fraction := parts.fraction.getD []
  let (significand, unread) := accumulate significand fraction
  let exponent := (dropped.length : Int) - (fraction.length - unread.length : Nat)
  let x ← Decimal.scaled? (UInt64.ofNat significand) (exponent + parts.exponent.getD 0)
  return .float (if isNegative then -x else x)

def Token.ofWord? (cs : List Char) : Option Token :=
  match String.ofList cs with
  | "null" => some .null
  | "true" => some (.bool true)
  | "false" => some (.bool false)
  | _ => none

def hex4? (a b c d : Char) : Option Nat := Decimal.readNat? 16 [a, b, c, d]

/-- A character that follows a backslash and stands for one character. -/
def shortEscape? : Char → Option Char
  | '"' => some '"'
  | '\\' => some '\\'
  | '/' => some '/'
  | 'b' => some '\x08'
  | 'f' => some '\x0c'
  | 'n' => some '\n'
  | 'r' => some '\r'
  | 't' => some '\t'
  | _ => none

/-- The pair of surrogates `high`, `low` as one character. -/
def surrogatePair? (high low : Nat) : Option Char :=
  if high ≤ 0xDBFF ∧ 0xDC00 ≤ low ∧ low ≤ 0xDFFF then
    some (Char.ofNat (0x10000 + 0x400 * (high - 0xD800) + (low - 0xDC00)))
  else none

def withChar (c? : Option Char) (read : Option (List Char × List Char)) :
    Option (List Char × List Char) :=
  c?.bind fun c => read.map fun r => (c :: r.1, r.2)

/-- The characters of a string up to its closing quote, and what follows. Control characters have to
be escaped, and surrogates have to come in pairs. -/
def readString? : List Char → Option (List Char × List Char)
  | [] => none
  | '"' :: rest => some ([], rest)
  | '\\' :: 'u' :: a :: b :: c :: d :: rest =>
    (hex4? a b c d).bind fun n =>
      if n < 0xD800 ∨ 0xDFFF < n then withChar (some (Char.ofNat n)) (readString? rest)
      else match rest with
        | '\\' :: 'u' :: e :: f :: g :: h :: rest =>
          withChar ((hex4? e f g h).bind (surrogatePair? n)) (readString? rest)
        | _ => none
  | '\\' :: c :: rest => withChar (shortEscape? c) (readString? rest)
  | c :: rest => withChar (if c ≠ '\\' ∧ '\x20' ≤ c then some c else none) (readString? rest)

theorem withChar_eq_some {c? : Option Char} {read : Option (List Char × List Char)}
    {text rest : List Char} (h : withChar c? read = some (text, rest)) :
    ∃ c t, c? = some c ∧ read = some (t, rest) ∧ text = c :: t := by
  simp only [withChar, Option.bind_eq_some_iff, Option.map_eq_some_iff, Prod.mk.injEq] at h
  obtain ⟨c, hc, ⟨t, r⟩, hread, rfl, rfl⟩ := h
  exact ⟨c, t, hc, hread, rfl⟩

theorem readString?_length {cs text rest : List Char} (h : readString? cs = some (text, rest)) :
    rest.length < cs.length := by
  fun_induction readString? cs generalizing text rest with
  | case1 => simp at h
  | case2 r => simp_all
  | case3 a b c d r ih ihPair =>
    obtain ⟨n, -, h⟩ := Option.bind_eq_some_iff.1 h
    split at h
    · obtain ⟨_, _, -, hread, -⟩ := withChar_eq_some h
      have := ih hread
      simp only [List.length_cons]
      omega
    · split at h
      · obtain ⟨_, _, -, hread, -⟩ := withChar_eq_some h
        have := ihPair hread
        simp only [List.length_cons]
        omega
      · simp at h
  | case4 c r _ ih =>
    obtain ⟨_, _, -, hread, -⟩ := withChar_eq_some h
    have := ih hread
    simp only [List.length_cons]
    omega
  | case5 c r _ _ _ ih =>
    obtain ⟨_, _, -, hread, -⟩ := withChar_eq_some h
    have := ih hread
    simp only [List.length_cons]
    omega

/-- The elements of a text in order. -/
def tokens? (cs : List Char) : Option (List Token) :=
  match cs with
  | [] => some []
  | c :: rest =>
    if isBlank c then tokens? rest
    else if isNumeric c then
      (Token.ofNumber? (c :: rest.takeWhile isNumeric)).bind fun token =>
        (tokens? (rest.dropWhile isNumeric)).map (token :: ·)
    else if isWordly c then
      (Token.ofWord? (c :: rest.takeWhile isWordly)).bind fun token =>
        (tokens? (rest.dropWhile isWordly)).map (token :: ·)
    else match c with
      | '[' => (tokens? rest).map (.openArray :: ·)
      | ']' => (tokens? rest).map (.closeArray :: ·)
      | '{' => (tokens? rest).map (.openObject :: ·)
      | '}' => (tokens? rest).map (.closeObject :: ·)
      | ',' => (tokens? rest).map (.comma :: ·)
      | ':' => (tokens? rest).map (.colon :: ·)
      | '"' =>
        match _h : readString? rest with
        | some (text, after) => (tokens? after).map (.string (String.ofList text) :: ·)
        | none => none
      | _ => none
termination_by cs.length
decreasing_by
  all_goals simp only [List.length_cons]
  any_goals omega
  · have := (List.dropWhile_sublist isNumeric (l := rest)).length_le
    omega
  · have := (List.dropWhile_sublist isWordly (l := rest)).length_le
    omega
  · have := readString?_length _h
    omega

end LayeredSettings.Json
