import LayeredSettings.Program.Handles

/-!
Commands to a program, which refer to everything by names.

A command that fails may still have changed the program. Tasks run only where a command says so.
-/

namespace LayeredSettings

inductive CommandFault
  | fault (f : Fault)
  /-- The facts are neither null nor a map. -/
  | noFacts
  /-- Nothing is held under a name. -/
  | unknown (name : String)
  | panicked

abbrev Command (α : Type) := ExceptT CommandFault (StateM Program) α

/-- A value as it is written in a command. -/
inductive WrittenValue
  | formatted (format : Format) (text : String)
  /-- JSON that is read into a tree first. -/
  | tree (text : String)

def WrittenValue.decode : WrittenValue → Except Fault Value
  | .formatted format text => format.decode text
  | .tree text => ((Json.read? text).map Value.ofJson).elim (.error .json) .ok

namespace Command

def program : Command Program := MonadState.get

def change (f : Program → Program) : Command Unit := modify f

def settle : Command Unit := change Program.settle

def ofFault {α : Type} : Except Fault α → Command α
  | .ok a => return a
  | .error f => throw (.fault f)

/-- An operation of a program as a command. -/
def ofProgram {α : Type} (f : Program → Program × Except Fault α) : Command α := do
  let (p, r) := f (← program)
  set p
  ofFault r

/-- What is held under a name. -/
def find {α : Type} (table : Names → KeyMap α) (name : String) : Command α := do
  match (table (← program).names).get? name with
  | some a => return a
  | none => throw (.unknown name)

def rename (f : Program → Names → Names) : Command Unit :=
  change fun p => { p with names := f p p.names }

def settings (name : String) : Command ResolverId := find Names.settings name

def holdSettings (name : String) (i : ResolverId) : Command Unit :=
  rename fun _ n => { n with settings := n.settings.insert name i }

def holdHandle (name : String) (handle : Nat) : Command Unit :=
  rename fun _ n => { n with handles := n.handles.insert name handle }

def resolver (i : ResolverId) : Command Resolver := do
  match (← program).resolvers[i]? with
  | some r => return r
  | none => throw (.unknown (toString i))

def named (name : String) : Command Resolver := do resolver (← settings name)

def facts : Option WrittenValue → Command Facts
  | none => return Facts.none
  | some written => do
    match Facts.ofValue? (← ofFault written.decode) with
    | some facts => return facts
    | none => throw .noFacts

/-! ## Opening -/

def openFile (name path : String) (format : Option Format) (context : Option WrittenValue) :
    Command Resolver := do
  let facts ← facts context
  let i ← ofProgram fun p => p.openFile path format facts
  holdSettings name i
  resolver i

def openText (name : String) (format : Format) (text : String) (context : Option WrittenValue) :
    Command Resolver := do
  let d ← ofFault (Document.parse format text)
  let facts ← facts context
  let (p, i) := (← program).openDocument d facts
  set p
  holdSettings name i
  resolver i

/-- Directories can be watched if they exist. -/
def openConfig (name text : String) (hasRuntime : Bool) : Command Resolver := do
  let c ← ofFault (Config.parse text)
  let i ← ofProgram fun p => p.openConfig c hasRuntime p.files.leadsSomewhere
  holdSettings name i
  resolver i

def clone (name copy : String) : Command Resolver := do
  let i ← settings name
  holdSettings copy i
  resolver i

def loadConfig (path : String) : Command Config := do ofFault ((← program).loadConfig path)

def loadDocument (path : String) (format : Format) : Command Document := do
  ofFault (Source.load ⟨path, format⟩ (← program).files)

/-- Gives up a handle. -/
def drop (name : String) : Command Unit := do
  let _ ← settings name
  rename fun _ n => { n with settings := n.settings.erase name }
  settle

/-! ## Reading -/

def get (name : String) (path : List String) : Command Value := do
  let i ← settings name
  ofProgram fun p => p.get i path

def getSafe (name : String) (path : List String) : Command (Option Value) := do
  let i ← settings name
  ofProgram fun p => (p.getSafe i path).map id .ok

def getAs (name : String) (path : List String) (shape : Shape) : Command Json := do
  let i ← settings name
  ofProgram fun p => p.getAs i path shape

/-- Keeps the live document under a name. -/
def snapshot (name copy : String) : Command Document := do
  let r ← named name
  rename fun _ n => { n with snapshots := n.snapshots.insert copy r.live }
  return r.live

def lookUpSnapshot (name : String) (path : List String) (context : Option WrittenValue) :
    Command (Document × Option Value) := do
  let d ← find Names.snapshots name
  return (d, d.resolve? (← facts context) path)

/-! ## Updates -/

/-- Registers a callback and holds its handle under a name, unless it panics when it is run at
once. -/
def register (i : ResolverId) (name : String) (callback : Callback) (now : Bool) : Command Nat := do
  match (← program).onUpdate i callback now with
  | (p, .completed, handle) =>
    set p
    holdHandle name handle
    return handle
  | (p, .panicked _, _) =>
    set p
    throw .panicked

def onUpdate (owner name : String) (callback : Callback) (now : Bool) : Command Nat := do
  register (← settings owner) name callback now

def cancel (owner handle : String) : Command Unit := do
  let i ← settings owner
  let index ← find Names.handles handle
  change fun p => p.cancel (.resolver i) index

def reload (name : String) : Command Int64 := do
  let i ← settings name
  ofProgram fun p => p.reload i

/-- Holds a subscriber under a name. -/
def subscribe (owner name : String) : Command Int64 := do
  let i ← settings owner
  rename fun p n => { n with receivers := n.receivers.insert name (p.receiver i) }
  return (← resolver i).latest.document.version

/-- Looks at the latest document. Tells whether it is new to the subscriber, if there may still be
new ones. -/
def receive (name : String) : Command (Option Bool × Int64) := do
  let receiver ← find Names.receivers name
  let changed := (← program).hasChanged receiver
  rename fun p n => { n with receivers := n.receivers.insert name (p.receiver receiver.resolver) }
  return (changed, (← resolver receiver.resolver).latest.document.version)

/-! ## Watching -/

/-- Starts a watch and holds its notifier under a name. -/
def watch (owner name : String) (notifier : Notifier) (hasRuntime : Bool) : Command Unit := do
  let i ← settings owner
  let w ← ofProgram fun p => p.startWatch i (fun _ => notifier) hasRuntime
  rename fun _ n => { n with notifiers := n.notifiers.insert name w }

def watchFile (owner : String) (hasRuntime : Bool) : Command Unit := do
  let i ← settings owner
  let _ ← ofProgram fun p => p.watchFile i hasRuntime p.files.leadsSomewhere

def send (w : WatchId) (e : WatchEvent) : Command Bool := do
  let (p, accepted) := (← program).send w e
  set p
  return accepted

/-- Sends events. The tasks run after each of them, or after the last one only. -/
def sendAll (notifier : String) (list : List WatchEvent) (burst : Bool) : Command (List Bool) := do
  let w ← find Names.notifiers notifier
  let accepted ← list.mapM fun e => do
    let accepted ← send w e
    if !burst then settle
    return accepted
  if burst then settle
  return accepted

def close (notifier : String) : Command Unit := do
  let w ← find Names.notifiers notifier
  change fun p => p.close w
  settle

/-- Stops watching. Other tasks go on before the end of the reload task is noticed. -/
def stop (name : String) : Command Bool := do
  let i ← settings name
  let (p, stopped) := (← program).stopWatch i
  set p
  settle
  if stopped then change (·.log (.watchStopped i))
  return stopped

def status (name : String) : Command WatchStatus := do
  let i ← settings name
  return (← program).watchStatus i

/-! ## The handle that is installed globally -/

def installed : Command ResolverId := do
  match (← program).installed with
  | some i => return i
  | none => throw (.fault .notConfigured)

def install (name : String) : Command Unit := do
  let i ← settings name
  change fun p => { p with installed := some i }

def uninstall : Command Unit := change fun p => { p with installed := none }

def getInstalled (path : List String) : Command Value := do
  let i ← installed
  ofProgram fun p => p.get i path

/-- What is found, or the reason why nothing could be looked up. -/
def getSafeInstalled (path : List String) : Command (Option Fault × Option Value) := do
  match (← program).installed with
  | none => return (some .notConfigured, none)
  | some i => return (none, ← ofProgram fun p => (p.getSafe i path).map id .ok)

def onUpdateInstalled (name : String) (callback : Callback) (now : Bool) : Command Nat := do
  register (← installed) name callback now

def cancelInstalled (handle : String) : Command Unit := do
  let index ← find Names.handles handle
  let i ← installed
  change fun p => p.cancel (.resolver i) index

/-! ## Registries by themselves -/

def newRegistry (name : String) : Command Unit :=
  change fun p => { p with
    registries := p.registries ++ [{}]
    names := { p.names with registries := p.names.registries.insert name p.registries.length } }

def registerIn (registry name : String) (callback : Callback) : Command Nat := do
  let i ← find Names.registries registry
  let (p, handle) := (← program).register (.registry i) callback
  set p
  holdHandle name handle
  return handle

def cancelIn (registry handle : String) : Command Unit := do
  let i ← find Names.registries registry
  let index ← find Names.handles handle
  change fun p => p.cancel (.registry i) index

def invoke (registry : String) : Command Nat := do
  let i ← find Names.registries registry
  let (p, completed) := (← program).invokeAll (.registry i)
  set p
  return completed

def registry (name : String) : Command Registry := do
  let i ← find Names.registries name
  return (← program).registry (.registry i)

end Command
end LayeredSettings
