import LayeredSettings.Value.Json
import LayeredSettings.Fault

/-!
Shapes that a setting can be asked for.

A shape is read from the JSON form of a value. Integers have to lie in the range of their type;
nothing is rounded, wrapped or taken from a text.
-/

namespace LayeredSettings

structure IntegerType where
  name : String
  low : Int
  high : Int
  deriving DecidableEq

def IntegerType.signed (bits : Nat) : IntegerType :=
  ⟨"i" ++ toString bits, -Int.pow 2 (bits - 1), Int.pow 2 (bits - 1) - 1⟩

def IntegerType.unsigned (bits : Nat) : IntegerType := ⟨"u" ++ toString bits, 0, Int.pow 2 bits - 1⟩

inductive Shape
  | bool
  | integer (type : IntegerType)
  | float
  | string
  | char
  | unit
  /-- Any value. -/
  | value
  | optional (inner : Shape)
  | list (item : Shape)
  | dictionary (item : Shape)
  | tuple (items : List Shape)
  | record (name : String) (fields : List (String × Shape))
  /-- One of several words. -/
  | variant (names : List String)

namespace Json

/-- What was found, as messages describe it. -/
def described : Json → String
  | .null => "null"
  | .bool b => "boolean " ++ Mismatch.code (if b then "true" else "false")
  | .unsigned n => "integer " ++ Mismatch.code (toString n.toNat)
  | .negative n => "integer " ++ Mismatch.code (toString n.toInt)
  | .float x => "floating point " ++ Mismatch.code (floatText x)
  | .string s => "string " ++ Text.quote s
  | .array _ => "sequence"
  | .object _ => "map"

/-- The number that an integer denotes. -/
def integer? : Json → Option Int
  | .unsigned n => some n.toNat
  | .negative n => some n.toInt
  | _ => none

def ofInteger (n : Int) : Json :=
  if n < 0 then .negative (Int64.ofInt n) else .unsigned (UInt64.ofNat n.toNat)

end Json

/-- Reads a value of any kind from a tree. -/
def Value.fromTree (j : Json) : Except Mismatch Value := .ok (j.fold Value.ofJsonParts)

namespace Shape

def wrongType (j : Json) (expected : String) : Except Mismatch Json :=
  .error (.wrongType j.described expected)

def readInteger (t : IntegerType) (j : Json) : Except Mismatch Json :=
  match j.integer? with
  | none => wrongType j t.name
  | some n =>
    if t.low ≤ n ∧ n ≤ t.high then .ok (.ofInteger n) else .error (.wrongValue j.described t.name)

def readFloat : Json → Except Mismatch Json
  | .float x => .ok (.float x)
  | .unsigned n => .ok (.float n.toFloat)
  | .negative n => .ok (.float n.toFloat)
  | j => wrongType j "f64"

def readChar : Json → Except Mismatch Json
  | .string s =>
    if s.length = 1 then .ok (.string s)
    else .error (.wrongValue (Json.string s).described "a character")
  | j => wrongType j "a character"

def readUnit : Json → Except Mismatch Json
  | .null => .ok .null
  | j => wrongType j "unit"

def readWord (names : List String) (name : String) : Except Mismatch Json :=
  if name ∈ names then .ok (.string name) else .error (.unknownVariant name names)

/-- A word, or a map from the word to null. -/
def readVariant (names : List String) : Json → Except Mismatch Json
  | .string name => readWord names name
  | .object [(name, content)] => do
    let word ← readWord names name
    let _ ← readUnit content
    return word
  | .object _ => .error (.wrongValue "map" "map with a single key")
  | j => wrongType j "string or map"

/-- Refuses items after the ones that were asked for. -/
def noMore (count : Nat) (items : List Json) : Except Mismatch Unit :=
  if items.length ≤ count then .ok ()
  else .error (.wrongLength items.length "fewer elements in array")

def recordWithSize (name : String) (count : Nat) : String :=
  "struct " ++ name ++ " with " ++ toString count ++ (if count = 1 then " element" else " elements")

/-- The fields of a record in their order, all of which must have been found. -/
def collect (names : List String) (found : List (String × Json)) :
    Except Mismatch (List (String × Json)) :=
  names.mapM fun name =>
    (found.lookup name).elim (.error (.missingField name)) fun j => .ok (name, j)

mutual
def read : Shape → Json → Except Mismatch Json
  | .bool, j =>
    match j with
    | .bool b => .ok (.bool b)
    | j => wrongType j "a boolean"
  | .integer t, j => readInteger t j
  | .float, j => readFloat j
  | .string, j =>
    match j with
    | .string s => .ok (.string s)
    | j => wrongType j "a string"
  | .char, j => readChar j
  | .unit, j => readUnit j
  | .value, j => .ok (j.fold Value.ofJsonParts).toJson
  | .optional inner, j =>
    match j with
    | .null => .ok .null
    | j => read inner j
  | .list item, j =>
    match j with
    | .array items => (items.mapM (read item)).map .array
    | j => wrongType j "a sequence"
  | .dictionary item, j =>
    match j with
    | .object entries =>
      (entries.mapM fun e => (read item e.2).map (e.1, ·)).map .object
    | j => wrongType j "a map"
  | .tuple shapes, j =>
    let expected := "a tuple of size " ++ toString shapes.length
    match j with
    | .array items => do
      let read ← readInOrder expected 0 shapes items
      noMore shapes.length items
      return .array read
    | j => wrongType j expected
  | .record name fields, j =>
    match j with
    | .array items => do
      let read ← readFieldsInOrder (recordWithSize name fields.length) 0 fields items
      noMore fields.length items
      return .object read
    | .object entries => do
      let found ← entries.filterMapM fun e => readField fields e.1 e.2
      (collect (fields.map (·.1)) found).map .object
    | j => wrongType j ("struct " ++ name)
  | .variant names, j => readVariant names j

/-- Items one after the other, from an index on. -/
def readInOrder (expected : String) (index : Nat) :
    List Shape → List Json → Except Mismatch (List Json)
  | [], _ => .ok []
  | _ :: _, [] => .error (.wrongLength index expected)
  | shape :: shapes, j :: rest => do
    let j ← read shape j
    return j :: (← readInOrder expected (index + 1) shapes rest)

def readFieldsInOrder (expected : String) (index : Nat) :
    List (String × Shape) → List Json → Except Mismatch (List (String × Json))
  | [], _ => .ok []
  | _ :: _, [] => .error (.wrongLength index expected)
  | (name, shape) :: fields, j :: rest => do
    let j ← read shape j
    return (name, j) :: (← readFieldsInOrder expected (index + 1) fields rest)

/-- An entry of a map as a field of a record; entries that are no fields are passed over. -/
def readField : List (String × Shape) → String → Json → Except Mismatch (Option (String × Json))
  | [], _, _ => .ok none
  | (name, shape) :: rest, key, j =>
    if name = key then (read shape j).map fun r => some (key, r) else readField rest key j
end

end Shape
end LayeredSettings
