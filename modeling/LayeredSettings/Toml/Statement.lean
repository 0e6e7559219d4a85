import LayeredSettings.Toml.Text
import LayeredSettings.Toml.Word
import LayeredSettings.Toml.Tree

/-!
Statements of TOML: headers of tables, and entries.
-/

namespace LayeredSettings.Toml

/-- A path of keys with the last key apart. -/
structure Key where
  path : List String
  last : String

inductive Statement
  | table (key : Key)
  | item (key : Key)
  | entry (key : Key) (value : Tree)

/-- Keys have fewer parts than this, and arrays and inline tables nest less deep. -/
def limit : Nat := 80

def isKeyChar (c : Char) : Bool := c.isAlphanum || c = '_' || c = '-'

def readKeyPart? : List Char → Option (String × List Char)
  | '"' :: cs => (line? '"' cs).map fun r => (String.ofList r.1, r.2)
  | '\'' :: cs => (line? '\'' cs).map fun r => (String.ofList r.1, r.2)
  | cs =>
    let name := cs.takeWhile isKeyChar
    if name.isEmpty then none else some (String.ofList name, cs.dropWhile isKeyChar)

/-- A key of at most `parts` parts with dots between them and blanks around them. -/
def readKeyParts? : (parts : Nat) → List Char → Option (Key × List Char)
  | 0, _ => none
  | parts + 1, cs =>
    (readKeyPart? (skipBlanks cs)).bind fun (part, cs) =>
      match skipBlanks cs with
      | '.' :: cs =>
        (readKeyParts? parts cs).map fun (key, cs) => (⟨part :: key.path, key.last⟩, cs)
      | cs => some (⟨[], part⟩, cs)

def readKey? (cs : List Char) : Option (Key × List Char) := readKeyParts? (limit - 1) cs

/-- The items that follow an opening bracket. `skip` takes the space around items; `trailing` tells
whether a comma may follow the last one, `mayClose` whether the closing bracket may come next. -/
def readItems? {α : Type} (skip : List Char → List Char)
    (read : List Char → Option (α × List Char)) (close : Char) (trailing mayClose : Bool)
    (cs : List Char) : Option (List α × List Char) := do
  let start := skip cs
  if mayClose ∧ start.head? = some close then return ([], start.tail)
  let (item, rest) ← read start
  match skip rest with
  | ',' :: later =>
    if later.length < cs.length then
      let (items, rest) ← readItems? skip read close trailing trailing later
      return (item :: items, rest)
    else none
  | c :: later => if c = close then some ([item], later) else none
  | [] => none
termination_by cs.length

def readPair? (read : List Char → Option (Tree × List Char)) (cs : List Char) :
    Option ((Key × Tree) × List Char) :=
  (readKey? cs).bind fun (key, cs) =>
    match cs with
    | '=' :: cs => (read (skipBlanks cs)).map fun (value, cs) => ((key, value), cs)
    | _ => none

/-- A value in which arrays and inline tables nest at most `depth` deep. An array may extend over
several lines, an inline table may not. -/
def readValue? : (depth : Nat) → List Char → Option (Tree × List Char)
  | depth + 1, '[' :: cs =>
    (readItems? skipLines (readValue? depth) ']' true true cs).map fun (items, cs) =>
      (.array items, cs)
  | depth + 1, '{' :: cs => do
    let (entries, cs) ← readItems? skipBlanks (readPair? (readValue? depth)) '}' false true cs
    let table ← entries.foldlM (fun t (key, value) => Tree.enter? value key.path key.last t) []
    return (.table .inline table, cs)
  | _, cs =>
    match string? cs with
    | some (text, cs) => some (.leaf (.string (String.ofList text)), cs)
    | none => (readWord? cs).map fun (v, cs) => (.leaf v, cs)

def readStatement? : List Char → Option (Statement × List Char)
  | '[' :: '[' :: cs =>
    (readKey? cs).bind fun (key, cs) =>
      match cs with
      | ']' :: ']' :: cs => some (.item key, cs)
      | _ => none
  | '[' :: cs =>
    (readKey? cs).bind fun (key, cs) =>
      match cs with
      | ']' :: cs => some (.table key, cs)
      | _ => none
  | cs =>
    (readPair? (readValue? (limit - 1)) cs).map fun ((key, value), cs) => (.entry key value, cs)

/-- The statements of a text, each at the start of a line of its own. -/
def statements? (cs : List Char) : Option (List Statement) := do
  if cs.isEmpty then return []
  match endLine? cs with
  | some rest => if rest.length < cs.length then statements? rest else none
  | none =>
    let (statement, rest) ← readStatement? (skipBlanks cs)
    let rest ← endLine? rest
    if rest.length < cs.length then return statement :: (← statements? rest) else none
termination_by cs.length

end LayeredSettings.Toml
