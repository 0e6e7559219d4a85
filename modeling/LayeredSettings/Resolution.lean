import LayeredSettings.Targeting

/-!
Settings under paths.

A path descends through maps only. Of the active layers that define a path the last one decides;
what it holds under the path is taken as it is and never merged with earlier layers.
-/

namespace LayeredSettings

namespace Value

def descend? : Value → List String → Option Value
  | v, [] => some v
  | v, key :: rest => (v.get? key).bind (descend? · rest)

/-- The value under a path that is not empty. A null that is present is found. -/
def lookup? (settings : KeyMap Value) : List String → Option Value
  | [] => none
  | key :: rest => (settings.get? key).bind (descend? · rest)

end Value

def Document.resolve? (d : Document) (facts : Facts) (path : List String) : Option Value :=
  d.dataLayers.foldl (fun found l =>
    if facts.activates l then Value.lookup? l.settings path <|> found else found) none

end LayeredSettings
