import LayeredSettings.Yaml.Node

/-!
The single document of a YAML text.

Tags are completed by the directives of the document, and anchors and aliases get numbers. The
number of an anchor is how many different names were seen before it, so an anchor that is defined
again takes a new number; the number is shared with the next new name.
-/

namespace LayeredSettings.Yaml

/-- A node with complete tags and numbered anchors. -/
abbrev Linked := Node Nat Octets

structure Directives where
  version : Option (Nat × Nat)
  handles : List (String × Octets)

def Directives.replacement? (d : Directives) (handle : String) : Option Octets :=
  let standard := [("!", "!".toUTF8.toList), ("!!", "tag:yaml.org,2002:".toUTF8.toList)]
  (d.handles ++ standard).lookup handle

def Directives.complete? (d : Directives) (t : WrittenTag) : Option Octets :=
  if t.handle.isEmpty then some t.suffix
  else (d.replacement? t.handle).map (· ++ t.suffix)

/-- Directives before a document: at most one version, of which 1.1 and 1.2 are known, and no handle
twice. -/
def Directives.read? (d : Directives) : List Token → Option (Directives × List Token)
  | .version major minor :: rest =>
    if d.version.isNone ∧ major = 1 ∧ (minor = 1 ∨ minor = 2) then
      Directives.read? { d with version := some (major, minor) } rest
    else none
  | .tagHandle handle replacement :: rest =>
    if (d.handles.lookup handle).isNone then
      Directives.read? { d with handles := d.handles ++ [(handle, replacement)] } rest
    else none
  | rest => some (d, rest)

/-- Nothing may follow the document but marks of its end. -/
def isFinished (ts : List Token) : Bool :=
  ts.dropWhile (· = .documentEnd) = [.streamEnd]

/-- The root node of the only document and its directives; an empty text has none. -/
def Written.document? (ts : List Token) : Option (Option (Directives × Written)) :=
  match ts with
  | [.streamEnd] => some none
  | _ => do
    let (directives, rest) ← Directives.read? ⟨none, []⟩ ts
    let explicit := directives.version.isSome || !directives.handles.isEmpty ||
      rest.head? = some .documentStart
    let (root, rest) ←
      match explicit, rest with
      | true, .documentStart :: rest =>
        if rest.head?.any fun t => t matches .version .. | .tagHandle .. | .documentStart |
            .documentEnd | .streamEnd then
          some (Written.nothing, rest)
        else (Written.node? true false rest).map fun (n, r) => (n, r.1)
      | true, _ => none
      | false, rest => (Written.node? true false rest).map fun (n, r) => (n, r.1)
    guard (isFinished rest)
    return some (directives, root)

/-- The numbers of the names seen so far. -/
abbrev Names := List (String × Nat)

def Names.number (names : Names) : Nat := (names.map Prod.fst).eraseDups.length

/-- Completes tags and numbers anchors in the order in which nodes begin. An alias stands for the
anchor last defined under its name. -/
def Names.define (names : Names) (anchor : Option String) : Option Nat × Names :=
  match anchor with
  | none => (none, names)
  | some name => (some names.number, (name, names.number) :: names)

mutual
def link? (d : Directives) (names : Names) : Written → Option (Linked × Names)
  | .alias name => do
    let n ← names.lookup name
    return (.alias n, names)
  | .scalar anchor tag text plain => do
    let (n, names) := names.define anchor
    let tag ← tag.mapM d.complete?
    return (.scalar n tag text plain, names)
  | .sequence anchor tag items => do
    let (n, names) := names.define anchor
    let tag ← tag.mapM d.complete?
    let (items, names) ← linkItems? d names items
    return (.sequence n tag items, names)
  | .mapping anchor tag pairs => do
    let (n, names) := names.define anchor
    let tag ← tag.mapM d.complete?
    let (pairs, names) ← linkPairs? d names pairs
    return (.mapping n tag pairs, names)

def linkItems? (d : Directives) (names : Names) : List Written → Option (List Linked × Names)
  | [] => some ([], names)
  | item :: rest => do
    let (item, names) ← link? d names item
    let (rest, names) ← linkItems? d names rest
    return (item :: rest, names)

def linkPairs? (d : Directives) (names : Names) :
    List (Written × Written) → Option (List (Linked × Linked) × Names)
  | [] => some ([], names)
  | (key, value) :: rest => do
    let (key, names) ← link? d names key
    let (value, names) ← link? d names value
    let (rest, names) ← linkPairs? d names rest
    return ((key, value) :: rest, names)
end

namespace Linked

mutual
/-- The nodes under an anchor, in the order in which they begin. -/
def anchored : Linked → List (Nat × Linked)
  | .alias _ => []
  | .scalar anchor tag text plain => (anchor.map (·, .scalar anchor tag text plain)).toList
  | .sequence anchor tag items =>
    (anchor.map (·, .sequence anchor tag items)).toList ++ anchoredItems items
  | .mapping anchor tag pairs =>
    (anchor.map (·, .mapping anchor tag pairs)).toList ++ anchoredPairs pairs

def anchoredItems : List Linked → List (Nat × Linked)
  | [] => []
  | item :: rest => anchored item ++ anchoredItems rest

def anchoredPairs : List (Linked × Linked) → List (Nat × Linked)
  | [] => []
  | (key, value) :: rest => anchored key ++ anchored value ++ anchoredPairs rest
end

mutual
/-- How many signs a node consists of: one for a scalar or an alias, two around a collection. -/
def size : Linked → Nat
  | .alias _ => 1
  | .scalar .. => 1
  | .sequence _ _ items => 2 + sizeItems items
  | .mapping _ _ pairs => 2 + sizePairs pairs

def sizeItems : List Linked → Nat
  | [] => 0
  | item :: rest => size item + sizeItems rest

def sizePairs : List (Linked × Linked) → Nat
  | [] => 0
  | (key, value) :: rest => size key + size value + sizePairs rest
end

end Linked
end LayeredSettings.Yaml
