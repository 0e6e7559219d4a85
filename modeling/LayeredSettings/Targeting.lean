import LayeredSettings.Document.Basic

/-!
Targets of layers and the facts they are compared with.

A target is a predicate on facts. A map asks for its keys only, a list for one of its elements, and
null is met by nothing.
-/

namespace LayeredSettings

namespace Value

mutual
/-- Whether facts meet a predicate. -/
def meets (facts : Value) : (predicate : Value) → Bool
  | .null => false
  | .list options => !facts.isNull && options.any (·.equal facts)
  | .map required =>
    match facts with
    | .map actual => meetsAll actual required
    | _ => false
  | predicate => !facts.isNull && predicate.equal facts

/-- Whether each required key is present with a value that meets its predicate. -/
def meetsAll (actual : List (String × Value)) : (required : List (String × Value)) → Bool
  | [] => true
  | (key, predicate) :: rest =>
    (match KeyMap.get? actual key with
    | some found => meets found predicate
    | none => false) && meetsAll actual rest
end

end Value

/-- The facts that are known about a process. -/
structure Facts where
  known : KeyMap Value

namespace Facts

def none : Facts := ⟨[]⟩

/-- Null stands for no facts; other values than maps are no facts. -/
def ofValue? : Value → Option Facts
  | .null => some none
  | .map known => some ⟨known⟩
  | _ => Option.none

def text (f : Facts) : String := (Value.map f.known).text

/-- A layer without a target is always active. -/
def activates (f : Facts) (l : DataLayer) : Bool := l.target.all (Value.meetsAll f.known)

def activatesLayer (f : Facts) : Layer → Bool
  | .data l => f.activates l
  | .metadata _ => false

end Facts
end LayeredSettings
