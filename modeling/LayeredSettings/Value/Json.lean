import LayeredSettings.Value.Basic
import LayeredSettings.Json.Reader
import LayeredSettings.Json.Printer

/-!
Values and JSON.

A value is read from JSON text without a tree in between. It is also converted to a JSON tree and
back; a NaN or an infinity becomes null on the way, and an unsigned integer takes the signed form if
it fits it. A tree can be folded into a value, too, or be converted number by number.
-/

namespace LayeredSettings.Value

/-- Builds a value from JSON; of repeated keys the last one counts. -/
def ofJsonParts : Json.Builder Value where
  null := .null
  bool := .bool
  unsigned n := .number (.ofUInt64 n)
  negative n := .number (.int n)
  float x := .number (.float x)
  string := .string
  array := .list
  object entries := .map (KeyMap.ofList entries)

def readJson? (text : String) : Option Value := Json.readWith? ofJsonParts text

mutual
def ofJson : Json → Value
  | .null => .null
  | .bool b => .bool b
  | .unsigned n => .number (.ofUInt64 n)
  | .negative n => .number (.int n)
  | .float x => .number (.float x)
  | .string s => .string s
  | .array items => .list (ofJsonItems items)
  | .object entries => .map (ofJsonEntries entries)

def ofJsonItems : List Json → List Value
  | [] => []
  | j :: rest => ofJson j :: ofJsonItems rest

def ofJsonEntries : List (String × Json) → List (String × Value)
  | [] => []
  | (k, j) :: rest => (k, ofJson j) :: ofJsonEntries rest
end

end LayeredSettings.Value

namespace LayeredSettings

namespace Json

/-! ## The forms of a number -/

def asInt64? : Json → Option Int64
  | .unsigned n => if n ≤ 0x7fffffffffffffff then some n.toInt64 else none
  | .negative n => some n
  | _ => none

def asUInt64? : Json → Option UInt64
  | .unsigned n => some n
  | _ => none

def asFloat? : Json → Option Float
  | .unsigned n => some n.toFloat
  | .negative n => some n.toFloat
  | .float x => some x
  | _ => none

end Json

namespace Value

/-- A number in the first form that it has. -/
def ofJsonNumber (j : Json) : Value :=
  match j.asInt64? with
  | some n => .number (.int n)
  | none =>
    match j.asUInt64? with
    | some n => .number (.ofUInt64 n)
    | none => .number (.float (j.asFloat?.getD (0 / 0)))

mutual
/-- Converts a tree, with the entries of each object put into a new map. -/
def convert : Json → Value
  | .null => .null
  | .bool b => .bool b
  | .unsigned n => ofJsonNumber (.unsigned n)
  | .negative n => ofJsonNumber (.negative n)
  | .float x => ofJsonNumber (.float x)
  | .string s => .string s
  | .array items => .list (convertItems items)
  | .object entries => .map (KeyMap.ofList (convertEntries entries))

def convertItems : List Json → List Value
  | [] => []
  | j :: rest => convert j :: convertItems rest

def convertEntries : List (String × Json) → List (String × Value)
  | [] => []
  | (k, j) :: rest => (k, convert j) :: convertEntries rest
end

end Value

def Number.toJson : Number → Json
  | .int n => if n < 0 then .negative n else .unsigned n.toUInt64
  | .uint n => .unsigned n
  | .float x => if x.isFinite then .float x else .null

namespace Value

mutual
def toJson : Value → Json
  | .null => .null
  | .bool b => .bool b
  | .number n => n.toJson
  | .string s => .string s
  | .list items => .array (toJsonItems items)
  | .map entries => .object (toJsonEntries entries)

def toJsonItems : List Value → List Json
  | [] => []
  | v :: rest => toJson v :: toJsonItems rest

def toJsonEntries : List (String × Value) → List (String × Json)
  | [] => []
  | (k, v) :: rest => (k, toJson v) :: toJsonEntries rest
end

/-- Compact JSON text. -/
def text (v : Value) : String := v.toJson.text

end Value
end LayeredSettings
