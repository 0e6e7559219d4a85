import LayeredSettings.Yaml.Token

/-!
The nodes of a YAML document, read from its lexical elements.

A reader of a node returns what is left of the elements together with a proof that something was
taken; the recursion ends because of that.
-/

namespace LayeredSettings.Yaml

/-- A node; `α` names anchors, `τ` is the form of a tag. -/
inductive Node (α τ : Type)
  | alias (target : α)
  | scalar (anchor : Option α) (tag : Option τ) (text : String) (plain : Bool)
  | sequence (anchor : Option α) (tag : Option τ) (items : List (Node α τ))
  | mapping (anchor : Option α) (tag : Option τ) (pairs : List (Node α τ × Node α τ))

/-- A tag as it is written: a handle and what follows it. -/
structure WrittenTag where
  handle : String
  suffix : Octets

/-- A node as it is written. -/
abbrev Written := Node String WrittenTag

namespace Written

/-- The properties before a node. -/
structure Properties where
  anchor : Option String
  tag : Option WrittenTag

/-- A node that is left out. -/
def nothing : Written := .scalar none none "" true

/-- What is left of the elements after some were taken. -/
abbrev After (ts : List Token) := { rest : List Token // rest.length < ts.length }

/-- What is left of the elements after some or none were taken. -/
abbrev UpTo (ts : List Token) := { rest : List Token // rest.length ≤ ts.length }

def properties? (ts : List Token) : Option (Properties × After ts) :=
  match ts with
  | .anchor a :: .tag h s :: rest =>
    some (⟨some a, some ⟨h, s⟩⟩, ⟨rest, by simp only [List.length_cons]; omega⟩)
  | .tag h s :: .anchor a :: rest =>
    some (⟨some a, some ⟨h, s⟩⟩, ⟨rest, by simp only [List.length_cons]; omega⟩)
  | .anchor a :: rest => some (⟨some a, none⟩, ⟨rest, by simp⟩)
  | .tag h s :: rest => some (⟨none, some ⟨h, s⟩⟩, ⟨rest, by simp⟩)
  | _ => none

/-- Whether a node with properties goes on here, or is empty. -/
def startsContent (block indentless : Bool) : Token → Bool
  | .scalar .. | .flowSequenceStart | .flowMappingStart => true
  | .blockSequenceStart | .blockMappingStart => block
  | .blockEntry => indentless
  | _ => false

mutual
/-- A node. Outside flow collections it may be a block collection, and as a key or a value of a
block mapping also a sequence that is indented no deeper than the mapping. -/
def node? (block indentless : Bool) (ts : List Token) : Option (Written × After ts) :=
  match ts with
  | .alias name :: rest => some (.alias name, ⟨rest, by simp⟩)
  | ts =>
    match properties? ts with
    | none => content? block indentless ⟨none, none⟩ ts
    | some (p, ⟨body, hbody⟩) =>
      if body.head?.any (startsContent block indentless) then do
        let (n, ⟨rest, _⟩) ← content? block indentless p body
        return (n, ⟨rest, by omega⟩)
      else some (.scalar p.anchor p.tag "" true, ⟨body, hbody⟩)
termination_by (ts.length, 2)

def content? (block indentless : Bool) (p : Properties) (ts : List Token) :
    Option (Written × After ts) :=
  match ts with
  | .scalar text plain :: rest => some (.scalar p.anchor p.tag text plain, ⟨rest, by simp⟩)
  | .flowSequenceStart :: rest => do
    let (items, ⟨after, _⟩) ← flowItems? rest
    return (.sequence p.anchor p.tag items, ⟨after, by simp only [List.length_cons]; omega⟩)
  | .flowMappingStart :: rest => do
    let (pairs, ⟨after, _⟩) ← flowPairs? rest
    return (.mapping p.anchor p.tag pairs, ⟨after, by simp only [List.length_cons]; omega⟩)
  | .blockSequenceStart :: rest =>
    if block then do
      let (items, ⟨after, _⟩) ← blockItems? rest
      return (.sequence p.anchor p.tag items, ⟨after, by simp only [List.length_cons]; omega⟩)
    else none
  | .blockMappingStart :: rest =>
    if block then do
      let (pairs, ⟨after, _⟩) ← blockPairs? rest
      return (.mapping p.anchor p.tag pairs, ⟨after, by simp only [List.length_cons]; omega⟩)
    else none
  | .blockEntry :: rest =>
    if indentless then do
      let (items, ⟨after, _⟩) ← indentlessItems? rest
      return (.sequence p.anchor p.tag items, ⟨after, by simp only [List.length_cons]; omega⟩)
    else none
  | _ => none
termination_by (ts.length, 1)

/-- A node, or nothing before an element that ends it. -/
def nodeUnless? (ends : Token → Bool) (block indentless : Bool) (ts : List Token) :
    Option (Written × UpTo ts) :=
  if ts.head?.any ends then some (nothing, ⟨ts, Nat.le_refl _⟩)
  else do
    let (n, ⟨rest, _⟩) ← node? block indentless ts
    return (n, ⟨rest, by omega⟩)
termination_by (ts.length, 3)

/-- Items of a block sequence up to its end. -/
def blockItems? (ts : List Token) : Option (List Written × After ts) :=
  match ts with
  | .blockEnd :: rest => some ([], ⟨rest, by simp⟩)
  | .blockEntry :: rest => do
    let (item, ⟨rest, _⟩) ← nodeUnless? (fun t => t matches .blockEntry | .blockEnd) true false rest
    let (items, ⟨after, _⟩) ← blockItems? rest
    return (item :: items, ⟨after, by simp only [List.length_cons]; omega⟩)
  | _ => none
termination_by (ts.length, 0)

/-- Items of a sequence that has no indentation of its own, after the dash of the first one. -/
def indentlessItems? (ts : List Token) : Option (List Written × UpTo ts) := do
  let (item, ⟨rest, hrest⟩) ←
    nodeUnless? (fun t => t matches .blockEntry | .key | .value | .blockEnd) true false ts
  match rest, hrest with
  | .blockEntry :: rest, hrest =>
    have : rest.length < ts.length := hrest
    let (items, ⟨after, _⟩) ← indentlessItems? rest
    return (item :: items, ⟨after, by omega⟩)
  | rest, hrest => return ([item], ⟨rest, hrest⟩)
termination_by (ts.length, 4)

/-- The value of a pair, or nothing if there is no colon. -/
def pairValue? (ends : Token → Bool) (block : Bool) (ts : List Token) :
    Option (Written × UpTo ts) :=
  match ts with
  | .value :: rest => do
    let (value, ⟨rest, _⟩) ← nodeUnless? ends block block rest
    return (value, ⟨rest, by simp only [List.length_cons]; omega⟩)
  | ts => some (nothing, ⟨ts, Nat.le_refl _⟩)
termination_by (ts.length, 0)

/-- Keys and values of a block mapping up to its end. -/
def blockPairs? (ts : List Token) : Option (List (Written × Written) × After ts) :=
  match ts with
  | .blockEnd :: rest => some ([], ⟨rest, by simp⟩)
  | .key :: rest => do
    let ends : Token → Bool := fun t => t matches .key | .value | .blockEnd
    let (key, ⟨rest, _⟩) ← nodeUnless? ends true true rest
    let (value, ⟨rest, _⟩) ← pairValue? ends true rest
    let (pairs, ⟨after, _⟩) ← blockPairs? rest
    return ((key, value) :: pairs, ⟨after, by simp only [List.length_cons]; omega⟩)
  | _ => none
termination_by (ts.length, 0)

/-- Items of a flow sequence up to its end; an item may be a mapping of one pair without braces. -/
def flowItems? (ts : List Token) : Option (List Written × After ts) :=
  match ts with
  | .flowSequenceEnd :: rest => some ([], ⟨rest, by simp⟩)
  | .key :: rest => do
    let (pair, ⟨rest, _⟩) ← flowPair? rest
    let (items, ⟨after, _⟩) ← moreFlowItems? rest
    return (.mapping none none [pair] :: items, ⟨after, by simp only [List.length_cons]; omega⟩)
  | ts => do
    let (item, ⟨rest, _⟩) ← node? false false ts
    let (items, ⟨after, _⟩) ← moreFlowItems? rest
    return (item :: items, ⟨after, by omega⟩)
termination_by (ts.length, 3)

def moreFlowItems? (ts : List Token) : Option (List Written × After ts) :=
  match ts with
  | .flowSequenceEnd :: rest => some ([], ⟨rest, by simp⟩)
  | .flowEntry :: rest => do
    let (items, ⟨after, _⟩) ← flowItems? rest
    return (items, ⟨after, by simp only [List.length_cons]; omega⟩)
  | _ => none
termination_by (ts.length, 0)

/-- The pair of a mapping without braces, after the mark of its key. If the key is left out, the
element that follows is skipped. -/
def flowPair? (ts : List Token) : Option ((Written × Written) × UpTo ts) := do
  let (key, ⟨rest, _⟩) ← flowPairKey? ts
  let ends : Token → Bool := fun t => t matches .flowEntry | .flowSequenceEnd
  let (value, ⟨rest, _⟩) ← pairValue? ends false rest
  return ((key, value), ⟨rest, by omega⟩)
termination_by (ts.length, 4)

def flowPairKey? (ts : List Token) : Option (Written × After ts) :=
  match ts with
  | [] => none
  | t :: rest =>
    if t matches .value | .flowEntry | .flowSequenceEnd then some (nothing, ⟨rest, by simp⟩)
    else node? false false (t :: rest)
termination_by (ts.length, 3)

/-- Keys and values of a flow mapping up to its end. A key without a mark has no value. -/
def flowPairs? (ts : List Token) : Option (List (Written × Written) × After ts) :=
  match ts with
  | .flowMappingEnd :: rest => some ([], ⟨rest, by simp⟩)
  | .key :: rest => do
    let ends : Token → Bool := fun t => t matches .value | .flowEntry | .flowMappingEnd
    let (key, ⟨rest, _⟩) ← nodeUnless? ends false false rest
    let ends : Token → Bool := fun t => t matches .flowEntry | .flowMappingEnd
    let (value, ⟨rest, _⟩) ← pairValue? ends false rest
    let (pairs, ⟨after, _⟩) ← moreFlowPairs? rest
    return ((key, value) :: pairs, ⟨after, by simp only [List.length_cons]; omega⟩)
  | ts => do
    let (key, ⟨rest, _⟩) ← node? false false ts
    let (pairs, ⟨after, _⟩) ← moreFlowPairs? rest
    return ((key, nothing) :: pairs, ⟨after, by omega⟩)
termination_by (ts.length, 3)

def moreFlowPairs? (ts : List Token) : Option (List (Written × Written) × After ts) :=
  match ts with
  | .flowMappingEnd :: rest => some ([], ⟨rest, by simp⟩)
  | .flowEntry :: rest => do
    let (pairs, ⟨after, _⟩) ← flowPairs? rest
    return (pairs, ⟨after, by simp only [List.length_cons]; omega⟩)
  | _ => none
termination_by (ts.length, 0)
end

end Written
end LayeredSettings.Yaml
