import LayeredSettings.KeyMap

/-!
JSON values, and readers of JSON that build values of another type.

An integer that fits 64 bits is kept exactly, as an unsigned number when it is not negative. A
`Builder` gives one operation for each kind of value; a tree is folded along it, and the reader of
JSON text calls the same operations without making a tree.
-/

namespace LayeredSettings

inductive Json
  | null
  | bool (b : Bool)
  | unsigned (n : UInt64)
  | negative (n : Int64)
  | float (x : Float)
  | string (s : String)
  | array (items : List Json)
  | object (entries : List (String × Json))
  deriving Inhabited

namespace Json

/-- What becomes of each kind of JSON value. The entries of an object come in their written order,
with repeated keys. -/
structure Builder (α : Type) where
  null : α
  bool : Bool → α
  unsigned : UInt64 → α
  negative : Int64 → α
  float : Float → α
  string : String → α
  array : List α → α
  object : List (String × α) → α

/-- Builds the tree itself; of repeated keys the last one counts. -/
def tree : Builder Json where
  null := .null
  bool := .bool
  unsigned := .unsigned
  negative := .negative
  float := .float
  string := .string
  array := .array
  object entries := .object (KeyMap.ofList entries)

/-- Builds a tree that has no room for a NaN or an infinity; they become null. -/
def finiteTree : Builder Json :=
  { tree with float := fun x => if x.isFinite then .float x else .null }

section
variable {α : Type} (b : Builder α)

mutual
def fold : Json → α
  | .null => b.null
  | .bool x => b.bool x
  | .unsigned n => b.unsigned n
  | .negative n => b.negative n
  | .float x => b.float x
  | .string s => b.string s
  | .array items => b.array (foldItems items)
  | .object entries => b.object (foldEntries entries)

def foldItems : List Json → List α
  | [] => []
  | j :: rest => fold j :: foldItems rest

def foldEntries : List (String × Json) → List (String × α)
  | [] => []
  | (k, j) :: rest => (k, fold j) :: foldEntries rest
end
end

end Json
end LayeredSettings
