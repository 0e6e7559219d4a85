import LayeredSettings.Value.Basic

/-!
Tables of TOML while they are being written.

A table may be extended later or not, depending on how it came about. Headers go through tables of
every kind but inline ones, and may give the content of a table that was only implied by a longer
header. Dotted keys end in tables that dotted keys made. In an array of tables only the last table
is open.
-/

namespace LayeredSettings.Toml

inductive Origin
  /-- Written in braces. -/
  | inline
  /-- Opened by a header of its own. -/
  | header
  /-- Implied by the header of a table inside it. -/
  | implied
  | dotted
  deriving DecidableEq

inductive Tree
  | leaf (v : Value)
  | array (items : List Tree)
  | table (origin : Origin) (entries : List (String × Tree))
  /-- An array of tables, of which the last one is open. -/
  | tables (closed : List Tree) (last : List (String × Tree))
  deriving Inhabited

namespace Tree

/-- Adds an entry under a dotted key; each key may be set only once. -/
def enter? (value : Tree) :
    (path : List String) → (key : String) → KeyMap Tree → Option (KeyMap Tree)
  | [], key, entries =>
    if (entries.get? key).isSome then none else some (entries.insert key value)
  | first :: rest, key, entries =>
    match entries.get? first with
    | none =>
      (enter? value rest key []).map fun inner => entries.insert first (.table .dotted inner)
    | some (.table origin inner) =>
      if origin = .dotted ∨ (origin = .implied ∧ rest ≠ []) then
        (enter? value rest key inner).map fun inner => entries.insert first (.table origin inner)
      else none
    | some (.tables closed last) =>
      if rest ≠ [] then
        (enter? value rest key last).map fun last => entries.insert first (.tables closed last)
      else none
    | some _ => none

/-- Changes the table that a header names; the tables on the way are made if need be. -/
def under? (change : KeyMap Tree → Option (KeyMap Tree)) :
    (path : List String) → KeyMap Tree → Option (KeyMap Tree)
  | [], entries => change entries
  | first :: rest, entries =>
    match entries.get? first with
    | none => (under? change rest []).map fun inner => entries.insert first (.table .implied inner)
    | some (.table origin inner) =>
      if origin = .inline then none
      else (under? change rest inner).map fun inner => entries.insert first (.table origin inner)
    | some (.tables closed last) =>
      (under? change rest last).map fun last => entries.insert first (.tables closed last)
    | some _ => none

def openTable? (key : String) (entries : KeyMap Tree) : Option (KeyMap Tree) :=
  match entries.get? key with
  | none => some (entries.insert key (.table .header []))
  | some (.table .implied inner) => some (entries.insert key (.table .header inner))
  | some _ => none

/-- Starts the next table of an array of tables. -/
def openItem? (key : String) (entries : KeyMap Tree) : Option (KeyMap Tree) :=
  match entries.get? key with
  | none => some (entries.insert key (.tables [] []))
  | some (.tables closed last) =>
    some (entries.insert key (.tables (closed ++ [.table .header last]) []))
  | some _ => none

mutual
def toValue : Tree → Value
  | .leaf v => v
  | .array items => .list (toValueItems items)
  | .table _ entries => .map (toValueEntries entries)
  | .tables closed last => .list (toValueItems closed ++ [.map (toValueEntries last)])

def toValueItems : List Tree → List Value
  | [] => []
  | t :: rest => toValue t :: toValueItems rest

def toValueEntries : List (String × Tree) → List (String × Value)
  | [] => []
  | (k, t) :: rest => (k, toValue t) :: toValueEntries rest
end

end Tree
end LayeredSettings.Toml
