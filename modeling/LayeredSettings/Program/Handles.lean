import LayeredSettings.Program.Watching
import LayeredSettings.Config
import LayeredSettings.Shape

/-!
Getting handles of settings and reading through them.
-/

namespace LayeredSettings.Program

/-- Loads a document from a file. The format is taken from the path if it is not given. -/
def openFile (p : Program) (path : String) (format : Option Format) (facts : Facts) :
    Program × Except Fault ResolverId :=
  let source : Source := ⟨path, format.getD (Format.ofPath path)⟩
  match source.load p.files with
  | .error fault => (p, .error fault)
  | .ok d =>
    let (p, i) := (p.log (.loaded path d.version d.size)).addResolver (.create source facts d)
    (p, .ok i)

/-- A document without a file cannot be reloaded or watched. -/
def openDocument (p : Program) (d : Document) (facts : Facts) : Program × ResolverId :=
  p.addResolver (.create none facts d)

def watchFile (p : Program) (i : ResolverId) (hasRuntime : Bool) (watchable : String → Bool) :
    Program × Except Fault WatchId :=
  p.startWatch i (.ofSystem watchable) hasRuntime

/-- Loads the configured document and starts to watch it if the configuration says so. -/
def openConfig (p : Program) (c : Config) (hasRuntime : Bool) (watchable : String → Bool) :
    Program × Except Fault ResolverId :=
  match c.facts with
  | .error fault => (p, .error fault)
  | .ok facts =>
    match p.openFile c.path c.format facts with
    | (p, .error fault) => (p, .error fault)
    | (p, .ok i) =>
      if c.watch.enabled then
        match p.watchFile i hasRuntime watchable with
        | (p, .ok _) => (p, .ok i)
        | (p, .error fault) => (p, .error fault)
      else (p, .ok i)

def loadConfig (p : Program) (path : String) : Except Fault Config := do
  let text ← (p.files.readText path).mapError (.load path)
  Config.parse text

/-- Looks up a path in the live document. That nothing is found is logged. -/
def getSafe (p : Program) (i : ResolverId) (path : List String) : Program × Option Value :=
  match p.resolvers[i]? with
  | none => (p, none)
  | some r =>
    match r.resolve? path with
    | some v => (p, some v)
    | none => (p.log (.settingMissing path r.version), none)

def get (p : Program) (i : ResolverId) (path : List String) : Program × Except Fault Value :=
  match p.getSafe i path with
  | (p, some v) => (p, .ok v)
  | (p, none) => (p, .error (.notFound path))

/-- Looks up a path and reads what is found as a type, of which the reader is given. -/
def getWith {α : Type} (p : Program) (i : ResolverId) (path : List String)
    (read : Json → Except Mismatch α) : Program × Except Fault α :=
  match p.get i path with
  | (p, .ok v) => (p, (read v.toJson).mapError (.conversion path))
  | (p, .error fault) => (p, .error fault)

/-- Looks up a path and reads the value as a shape. -/
def getAs (p : Program) (i : ResolverId) (path : List String) (shape : Shape) :
    Program × Except Fault Json :=
  p.getWith i path shape.read

/-- A subscriber that has seen everything so far. -/
def receiver (p : Program) (i : ResolverId) : Receiver :=
  ⟨i, (p.resolvers[i]?.map (·.latest.number)).getD 0⟩

/-- Whether something was published that a subscriber has not seen; `none` when the resolver is no
longer in use. -/
def hasChanged (p : Program) (r : Receiver) : Option Bool :=
  if p.inUse r.resolver then p.resolvers[r.resolver]?.map (·.latest.number ≠ r.seen) else none

end LayeredSettings.Program
