import LayeredSettings.Toml.Statement

/-!
Values of TOML text.

Statements are carried out one after the other on the tables written so far. An entry goes into the
table that the last header opened.
-/

namespace LayeredSettings.Toml

/-- The tables written so far, and the path of the last header. -/
structure Tables where
  root : KeyMap Tree
  current : List String

def Tables.add? (t : Tables) : Statement → Option Tables
  | .table key =>
    (Tree.under? (Tree.openTable? key.last) key.path t.root).map (⟨·, key.path ++ [key.last]⟩)
  | .item key =>
    (Tree.under? (Tree.openItem? key.last) key.path t.root).map (⟨·, key.path ++ [key.last]⟩)
  | .entry key value =>
    (Tree.under? (Tree.enter? value key.path key.last) t.current t.root).map (⟨·, t.current⟩)

/-- A byte order mark may precede the text. -/
def withoutMark : List Char → List Char
  | '\ufeff' :: cs => cs
  | cs => cs

end LayeredSettings.Toml

namespace LayeredSettings.Value

/-- The table that a text stands for. -/
def readToml? (text : String) : Option Value := do
  let statements ← Toml.statements? (Toml.withoutMark text.toList)
  let tables ← statements.foldlM Toml.Tables.add? ⟨[], []⟩
  return (Toml.Tree.table .header tables.root).toValue

end LayeredSettings.Value
