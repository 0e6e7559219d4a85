import LayeredSettings.Text.Quoted

/-!
Everything that can go wrong, each as its cause. The wording is `Fault.message`.
-/

namespace LayeredSettings

/-- Why the text of a file could not be had. -/
inductive ReadFault
  | notFound
  | notADirectory
  | isADirectory
  | notText
  deriving DecidableEq

def ReadFault.message : ReadFault → String
  | .notFound => "No such file or directory (os error 2)"
  | .notADirectory => "Not a directory (os error 20)"
  | .isADirectory => "Is a directory (os error 21)"
  | .notText => "stream did not contain valid UTF-8"

/-- What is wrong with one layer of a document. -/
inductive LayerFault
  | notAMap (kind : String)
  | metaNotAMap (kind : String)
  | mixed
  | versionNotInteger
  | endNotBool
  | incomplete
  | fieldNotAMap (field kind : String)
  | misplacedMetadata
  | described (message : String)
  deriving DecidableEq

def LayerFault.message : LayerFault → String
  | .notAMap kind => "expected a map, found " ++ kind
  | .metaNotAMap kind => "meta must be a map, found " ++ kind
  | .mixed => "a layer must only have settings or metadata, not both"
  | .versionNotInteger => "version must be an integer"
  | .endNotBool => "end must be a bool"
  | .incomplete => "a layer must have a name and settings"
  | .fieldNotAMap field kind => field ++ " must be a map, found " ++ kind
  | .misplacedMetadata => "metadata layer must be the final layer"
  | .described message => message

/-- What is wrong with a document or a configuration as a whole. -/
inductive WholeFault
  | notAList (kind : String)
  | missingMetadata
  | emptyPath
  | zeroPollInterval
  | contextNotATable (kind : String)
  | described (message : String)
  deriving DecidableEq

def WholeFault.message : WholeFault → String
  | .notAList kind => "document must be a list of layers, found " ++ kind
  | .missingMetadata =>
    "missing terminal metadata: the last layer must be a metadata layer with end: true"
  | .emptyPath => "path must not be empty"
  | .zeroPollInterval => "watch.poll_interval_ms must be greater than 0"
  | .contextNotATable kind => "context must be a table, found " ++ kind
  | .described message => message

/-- Why a value does not have the shape that is asked for. What was found is described in words. -/
inductive Mismatch
  | wrongType (found expected : String)
  | wrongValue (found expected : String)
  | wrongLength (length : Nat) (expected : String)
  | missingField (name : String)
  | unknownVariant (name : String) (expected : List String)
  deriving DecidableEq

def Mismatch.code (s : String) : String := "`" ++ s ++ "`"

/-- Alternatives in words. -/
def Mismatch.alternatives : List String → String
  | [a, b] => code a ++ " or " ++ code b
  | [a] => code a
  | names => "one of " ++ ", ".intercalate (names.map code)

def Mismatch.message : Mismatch → String
  | .wrongType found expected => "invalid type: " ++ found ++ ", expected " ++ expected
  | .wrongValue found expected => "invalid value: " ++ found ++ ", expected " ++ expected
  | .wrongLength length expected =>
    "invalid length " ++ toString length ++ ", expected " ++ expected
  | .missingField name => "missing field " ++ code name
  | .unknownVariant name [] => "unknown variant " ++ code name ++ ", there are no variants"
  | .unknownVariant name expected =>
    "unknown variant " ++ code name ++ ", expected " ++ alternatives expected

inductive Fault
  | load (path : String) (cause : ReadFault)
  | yaml
  | json
  | toml
  /-- The layer at an index, with the layer itself as text where it was still at hand. -/
  | layer (index : Nat) (cause : LayerFault) (shown : Option String)
  | whole (cause : WholeFault)
  | notFound (path : List String)
  | conversion (path : List String) (cause : Mismatch)
  | notConfigured
  | watcher
  | alreadyWatching
  | noRuntime
  | noSource
  deriving DecidableEq

/-- A path of keys in its usual notation. -/
def dotted (path : List String) : String := ".".intercalate path

def Fault.message : Fault → String
  | .load path cause => "failed to read settings document " ++ path ++ ": " ++ cause.message
  | .yaml => "YAML parse error"
  | .json => "JSON parse error"
  | .toml => "TOML parse error"
  | .layer index cause shown =>
    "Invalid settings layer at index " ++ toString index ++ ": " ++ cause.message ++
      shown.elim "" (" => " ++ ·)
  | .whole cause => cause.message
  | .notFound path => "The setting '" ++ dotted path ++ "' was not found"
  | .conversion path cause =>
    "The setting '" ++ dotted path ++ "' could not be converted: " ++ cause.message
  | .notConfigured => "The global process settings have not been set"
  | .watcher => "Notify watcher error"
  | .alreadyWatching => "settings are already being watched"
  | .noRuntime => "watching settings requires a running Tokio runtime"
  | .noSource => "settings have no backing file"

def Fault.isNotFound : Fault → Bool
  | .notFound _ => true
  | _ => false

end LayeredSettings
