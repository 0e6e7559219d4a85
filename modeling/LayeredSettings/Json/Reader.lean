import LayeredSettings.Json.Token

/-!
Reading JSON text.

The reader goes through the tokens once and keeps a stack of the containers that are still open.
Along with the stack it remembers what may come next. Nothing is read ahead and nothing is read
twice, so the reader is a fold over the tokens.
-/

namespace LayeredSettings.Json

/-- A container that is still open, with its contents so far in reverse order. -/
inductive Open (α : Type)
  | array (items : List α)
  | object (entries : List (String × α)) (key : String)

inductive State (α : Type)
  /-- A value has to come. -/
  | value (stack : List (Open α))
  /-- An array was just opened: a value or its end. -/
  | firstItem (stack : List (Open α))
  /-- An object was just opened: a key or its end. -/
  | firstKey (stack : List (Open α))
  | key (stack : List (Open α)) (entries : List (String × α))
  | colon (stack : List (Open α)) (entries : List (String × α)) (key : String)
  /-- An item of an array was read: a comma or the end. -/
  | afterItem (stack : List (Open α)) (items : List α)
  | afterEntry (stack : List (Open α)) (entries : List (String × α))
  | complete (result : α)

/-- Containers nest at most this deep. -/
def maxDepth : Nat := 127

section
variable {α : Type} (b : Builder α)

/-- Puts a value that was read in full into the innermost open container. -/
def deliver (v : α) : List (Open α) → State α
  | [] => .complete v
  | .array items :: stack => .afterItem stack (v :: items)
  | .object entries key :: stack => .afterEntry stack ((key, v) :: entries)

/-- Starts a value. -/
def start (stack : List (Open α)) : Token → Option (State α)
  | .null => some (deliver b.null stack)
  | .bool x => some (deliver (b.bool x) stack)
  | .unsigned n => some (deliver (b.unsigned n) stack)
  | .negative n => some (deliver (b.negative n) stack)
  | .float x => some (deliver (b.float x) stack)
  | .string s => some (deliver (b.string s) stack)
  | .openArray => if stack.length < maxDepth then some (.firstItem stack) else none
  | .openObject => if stack.length < maxDepth then some (.firstKey stack) else none
  | _ => none

def step : State α → Token → Option (State α)
  | .value stack, t => start b stack t
  | .firstItem stack, .closeArray => some (deliver (b.array []) stack)
  | .firstItem stack, t => start b (.array [] :: stack) t
  | .firstKey stack, .closeObject => some (deliver (b.object []) stack)
  | .firstKey stack, .string k => some (.colon stack [] k)
  | .key stack entries, .string k => some (.colon stack entries k)
  | .colon stack entries k, .colon => some (.value (.object entries k :: stack))
  | .afterItem stack items, .comma => some (.value (.array items :: stack))
  | .afterItem stack items, .closeArray => some (deliver (b.array items.reverse) stack)
  | .afterEntry stack entries, .comma => some (.key stack entries)
  | .afterEntry stack entries, .closeObject => some (deliver (b.object entries.reverse) stack)
  | _, _ => none

/-- Reads one value; nothing but blanks may stand around it. -/
def readWith? (text : String) : Option α := do
  let tokens ← tokens? text.toList
  match ← tokens.foldlM (step b) (.value []) with
  | .complete v => some v
  | _ => none

end

def read? (text : String) : Option Json := readWith? tree text

end LayeredSettings.Json
