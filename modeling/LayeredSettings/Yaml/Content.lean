import LayeredSettings.Yaml.Document
import LayeredSettings.Yaml.Scalar
import LayeredSettings.Yaml.Token.Lexer
import LayeredSettings.Value.Basic
import LayeredSettings.Decimal.Layout

/-!
Values of YAML documents.

An alias stands for a copy of the node under its anchor. Two limits keep the copies finite:
collections nest at most 128 deep, and aliases are followed at most a hundred times as often as the
document has signs.
-/

namespace LayeredSettings.Yaml

/-- Floating-point keys are written without an exponent and without a needless `.0`, and of two
equally near decimals the one farther from zero. -/
def keyNumbers : Decimal.Layout where
  tie := .up
  positional _ := true
  pointZero := false
  notANumber := "NaN"
  infinity := "inf"

namespace Scalar

def value? : Scalar → Option Value
  | .null => some .null
  | .bool b => some (.bool b)
  | .unsigned n => some (.number (.ofUInt64 n))
  | .signed n => some (.number (.int n))
  | .wide _ => none
  | .float x => some (.number (.float x))
  | .string s => some (.string s)

/-- The text of a scalar that is the key of a map; null is no key. -/
def key? : Scalar → Option String
  | .null => none
  | .bool b => some (if b then "true" else "false")
  | .unsigned n => some (toString n.toNat)
  | .signed n => some (toString n.toInt)
  | .wide _ => none
  | .float x => some (keyNumbers.write x)
  | .string s => some s

end Scalar

/-- The nodes under anchors; of several with one number the last one counts. -/
abbrev Anchors := List (Nat × Linked)

def Anchors.node? (anchors : Anchors) (n : Nat) : Option Linked := anchors.reverse.lookup n

/-- A node with any alias replaced by what it stands for, and the number of aliases that may still
be followed. -/
def follow? (anchors : Anchors) (aliases : Nat) : Linked → Option (Linked × Nat)
  | .alias n =>
    match aliases with
    | 0 => none
    | aliases + 1 => (anchors.node? n).map (·, aliases)
  | n => some (n, aliases)

def readKey? (anchors : Anchors) (aliases : Nat) (n : Linked) : Option (String × Nat) := do
  let (n, aliases) ← follow? anchors aliases n
  match n with
  | .scalar _ tag text plain =>
    let scalar ← Scalar.read? tag text plain
    return (← scalar.key?, aliases)
  | _ => none

/-- Collections take no local tag; other tags of theirs do not matter. -/
def collectionTag? (tag : Option Octets) : Option Unit :=
  guard (tag.all fun t => !(Scalar.isLocalTag t && Scalar.isText t))

section
variable (read? : Nat → Linked → Option (Value × Nat)) (anchors : Anchors)

def readItems? (aliases : Nat) : List Linked → Option (List Value × Nat)
  | [] => some ([], aliases)
  | item :: rest => do
    let (v, aliases) ← read? aliases item
    let (vs, aliases) ← readItems? aliases rest
    return (v :: vs, aliases)

def readPairs? (aliases : Nat) : List (Linked × Linked) → Option (List (String × Value) × Nat)
  | [] => some ([], aliases)
  | (key, value) :: rest => do
    let (k, aliases) ← readKey? anchors aliases key
    let (v, aliases) ← read? aliases value
    let (vs, aliases) ← readPairs? aliases rest
    return ((k, v) :: vs, aliases)
end

/-- The value of a node inside which `depth` more collections may nest. -/
def readNode? (anchors : Anchors) (depth aliases : Nat) (n : Linked) : Option (Value × Nat) := do
  let (n, aliases) ← follow? anchors aliases n
  match n with
  | .alias _ => none
  | .scalar _ tag text plain =>
    let scalar ← Scalar.read? tag text plain
    return (← scalar.value?, aliases)
  | .sequence _ tag items =>
    collectionTag? tag
    match depth with
    | 0 => none
    | depth + 1 =>
      let (vs, aliases) ← readItems? (readNode? anchors depth) aliases items
      return (.list vs, aliases)
  | .mapping _ tag pairs =>
    collectionTag? tag
    match depth with
    | 0 => none
    | depth + 1 =>
      let (entries, aliases) ← readPairs? (readNode? anchors depth) anchors aliases pairs
      return (.map (KeyMap.ofList entries), aliases)

end LayeredSettings.Yaml

namespace LayeredSettings.Value
open Yaml

/-- The value of the only document of a YAML text; an empty text is null. -/
def readYaml? (text : String) : Option Value := do
  let tokens ← Token.read? text
  match ← Written.document? tokens with
  | none => return .null
  | some (directives, root) =>
    let (root, _) ← link? directives [] root
    let (v, _) ← readNode? root.anchored maxDepth (100 * root.size) root
    return v

end LayeredSettings.Value
