import LayeredSettings.KeyMap

/-!
Decoded content of documents, contexts and settings.

A number is an integer of 64 bits or a floating-point number. An integer is kept as unsigned only
when it exceeds the signed range, so that every integer has one form.
-/

namespace LayeredSettings

inductive Number
  | int (n : Int64)
  | uint (n : UInt64)
  | float (x : Float)
  deriving DecidableEq

namespace Number

/-- Unsigned integers take the signed form whenever they fit it. -/
def ofUInt64 (n : UInt64) : Number :=
  if n ≤ 0x7fffffffffffffff then .int n.toInt64 else .uint n

/-- Numbers of different kinds differ; a NaN differs from itself, and 0.0 equals -0.0. -/
def equal : Number → Number → Bool
  | .int a, .int b => a == b
  | .uint a, .uint b => a == b
  | .float x, .float y => x == y
  | _, _ => false

def asInt64? : Number → Option Int64
  | .int n => some n
  | .uint n => if n ≤ 0x7fffffffffffffff then some n.toInt64 else none
  | .float _ => none

/-- The nearest floating-point number. -/
def toFloat : Number → Float
  | .int n => n.toFloat
  | .uint n => n.toFloat
  | .float x => x

end Number

inductive Value
  | null
  | bool (b : Bool)
  | number (n : Number)
  | string (s : String)
  | list (items : List Value)
  | map (entries : List (String × Value))
  deriving Inhabited

namespace Value

/-- Short name of the kind of a value, used in messages. -/
def kind : Value → String
  | .null => "null"
  | .bool _ => "bool"
  | .number _ => "number"
  | .string _ => "string"
  | .list _ => "list"
  | .map _ => "map"

def isNull : Value → Bool
  | .null => true
  | _ => false

def asBool? : Value → Option Bool
  | .bool b => some b
  | _ => none

def asInt64? : Value → Option Int64
  | .number n => n.asInt64?
  | _ => none

def asFloat? : Value → Option Float
  | .number n => some n.toFloat
  | _ => none

def asString? : Value → Option String
  | .string s => some s
  | _ => none

def asList? : Value → Option (List Value)
  | .list items => some items
  | _ => none

def asMap? : Value → Option (KeyMap Value)
  | .map entries => some entries
  | _ => none

/-- The child of a map under a key; other values have no children. -/
def get? (v : Value) (key : String) : Option Value :=
  v.asMap?.bind (KeyMap.get? · key)

mutual
/-- Equality of content: same shape, same keys, equal numbers. -/
def equal : Value → Value → Bool
  | .null, .null => true
  | .bool a, .bool b => a == b
  | .number a, .number b => a.equal b
  | .string a, .string b => a == b
  | .list a, .list b => equalItems a b
  | .map a, .map b => equalEntries a b
  | _, _ => false

def equalItems : List Value → List Value → Bool
  | [], [] => true
  | a :: as, b :: bs => equal a b && equalItems as bs
  | _, _ => false

def equalEntries : List (String × Value) → List (String × Value) → Bool
  | [], [] => true
  | (j, a) :: as, (k, b) :: bs => j == k && equal a b && equalEntries as bs
  | _, _ => false
end

end Value
end LayeredSettings
