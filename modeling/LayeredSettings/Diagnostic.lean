import LayeredSettings.Fault

/-!
Diagnostic events and their lines in a log. Events about one resolver name it, but not in the line.
-/

namespace LayeredSettings

/-- Identifies a resolver by the order in which resolvers came about. -/
abbrev ResolverId := Nat

inductive Diagnostic
  | loaded (path : String) (version : Int64) (layers : Nat)
  | published (resolver : ResolverId) (previous version : Int64) (layers : Nat)
  /-- A round of callbacks is over. `publication` is the number of the document that caused it. -/
  | invoked (resolver : ResolverId) (publication : Nat) (version : Int64) (completed : Nat)
  | panicked (handle : Nat) (message : Option String)
  | settingMissing (path : List String) (version : Int64)
  | watcherStarted (path directory : String)
  | watchStarted (resolver : ResolverId) (path : String)
  | reloadFailed (resolver : ResolverId) (fault : Fault) (version : Int64)
  | watchFault (message : String)
  | taskEnded (resolver : ResolverId)
  | watchStopped (resolver : ResolverId)

namespace Diagnostic

def decimal (n : Int64) : String := toString n.toInt

/-- Where a reader of a format reports a fault, its own words are left out. -/
def brief (value : String) : String :=
  (["YAML parse error", "JSON parse error"].find? (value.startsWith ·)).getD value

/-- A line: an event and its fields. -/
def line (event : String) (fields : List (String × String)) : String :=
  fields.foldl (fun text (name, value) => text ++ " " ++ name ++ "=" ++ brief value) event

def text : Diagnostic → String
  | .loaded path version layers =>
    line "INFO Settings document loaded"
      [("path", path), ("version", decimal version), ("layers", toString layers)]
  | .published _ previous version layers =>
    line "INFO Settings document published"
      [("previous_version", decimal previous), ("version", decimal version),
        ("layers", toString layers)]
  | .invoked _ _ version completed =>
    line "DEBUG Update callbacks invoked"
      [("version", decimal version), ("callbacks", toString completed)]
  | .panicked handle message =>
    line "ERROR Update callback panicked"
      [("handle", toString handle), ("panic", message.getD "non-string panic payload")]
  | .settingMissing path version =>
    line "DEBUG Setting not found" [("path", dotted path), ("version", decimal version)]
  | .watcherStarted path directory =>
    line "INFO Settings watcher started" [("path", path), ("dir", directory)]
  | .watchStarted _ path => line "INFO Settings hot reload enabled" [("path", path)]
  | .reloadFailed _ fault version =>
    line "ERROR Failed to reload settings. Keeping current document."
      [("error", fault.message), ("version", decimal version)]
  | .watchFault message => line "ERROR Settings watch error" [("error", message)]
  | .taskEnded _ => line "DEBUG Settings reload task exiting" []
  | .watchStopped _ => line "INFO Settings hot reload stopped" []

end Diagnostic
end LayeredSettings
