import LayeredSettings.Watch

/-!
A program that uses settings: its files, resolvers, callbacks and watches, and the names under which
it holds them.

A resolver is in use as long as some handle refers to it, be it held under a name or installed
globally. Everything else about a program only grows.
-/

namespace LayeredSettings

/-- A callback with the number of its runs so far. -/
structure CallbackRecord where
  callback : Callback
  runs : Nat := 0

/-- Whose callbacks a registry holds. -/
inductive Owner
  | resolver (id : ResolverId)
  | registry (id : Nat)
  deriving DecidableEq

/-- What a program holds under names. -/
structure Names where
  settings : KeyMap ResolverId := []
  registries : KeyMap Nat := []
  handles : KeyMap Nat := []
  notifiers : KeyMap WatchId := []
  receivers : KeyMap Receiver := []
  snapshots : KeyMap Document := []

/-- What others notice of a program. -/
inductive Occurrence
  | recorded (text : String)
  | logged (event : Diagnostic)

def Occurrence.recording? : Occurrence → Option String
  | .recorded text => some text
  | _ => none

def Occurrence.line? : Occurrence → Option String
  | .logged event => some event.text
  | _ => none

/-- What callbacks and their registries go through. A round is known by the length of the journal
when it began. -/
inductive Mark
  | registered (owner : Owner) (handle : Nat) (callback : CallbackId)
  | cancelled (owner : Owner) (handle : Nat)
  | began (owner : Owner)
  | called (round handle : Nat) (callback : CallbackId)
  /-- A callback was called when it was registered. -/
  | calledAtOnce (callback : CallbackId)
  | completed (round handle : Nat)
  | ended (round completed : Nat)
  deriving DecidableEq

structure Program where
  files : FileStore := {}
  resolvers : List Resolver := []
  registries : List Registry := []
  callbacks : List CallbackRecord := []
  watches : List Watch := []
  names : Names := {}
  /-- The handle that is installed globally. -/
  installed : Option ResolverId := none
  /-- The latest occurrence comes first. -/
  history : List Occurrence := []
  /-- The latest mark comes first. -/
  journal : List Mark := []

namespace Program

def note (p : Program) (o : Occurrence) : Program := { p with history := o :: p.history }

def log (p : Program) (d : Diagnostic) : Program := p.note (.logged d)

def record (p : Program) (text : String) : Program := p.note (.recorded text)

def mark (p : Program) (m : Mark) : Program := { p with journal := m :: p.journal }

/-- What has happened since the history had a length, in the order in which it happened. -/
def since (p : Program) (length : Nat) : List Occurrence :=
  (p.history.take (p.history.length - length)).reverse

/-- Whether some handle of a resolver is left. -/
def inUse (p : Program) (i : ResolverId) : Bool :=
  p.names.settings.any (·.2 = i) || p.installed = some i

def reached (p : Program) : Access → Option ResolverId
  | .named name => p.names.settings.get? name
  | .installed => p.installed

def rename (p : Program) (f : Names → Names) : Program := { p with names := f p.names }

def holdSettings (p : Program) (name : String) (i : ResolverId) : Program :=
  p.rename fun n => { n with settings := n.settings.insert name i }

/-- Holds handles otherwise. What refers to nothing is left alone. -/
def rebind (p : Program) : Rebinding → Program
  | .clone settings copy => (p.reached settings).elim p (p.holdSettings copy)
  | .drop name => p.rename fun n => { n with settings := n.settings.erase name }
  | .install settings => (p.reached settings).elim p fun i => { p with installed := some i }
  | .uninstall => { p with installed := none }

def modifyResolver (p : Program) (i : ResolverId) (f : Resolver → Resolver) : Program :=
  { p with resolvers := p.resolvers.modify i f }

def modifyWatch (p : Program) (w : WatchId) (f : Watch → Watch) : Program :=
  { p with watches := p.watches.modify w f }

def registry (p : Program) : Owner → Registry
  | .resolver i => (p.resolvers[i]?.map (·.registry)).getD {}
  | .registry i => p.registries[i]?.getD {}

def modifyRegistry (p : Program) (owner : Owner) (f : Registry → Registry) : Program :=
  match owner with
  | .resolver i => p.modifyResolver i fun r => { r with registry := f r.registry }
  | .registry i => { p with registries := p.registries.modify i f }

/-- The owners that a name refers to. -/
def ownersNamed (p : Program) (name : String) : List Owner :=
  ((p.names.settings.get? name).map .resolver).toList ++
    ((p.names.registries.get? name).map .registry).toList

/-- A new callback in a registry, with its handle. -/
def register (p : Program) (owner : Owner) (callback : Callback) : Program × Nat :=
  let handle := (p.registry owner).size
  let id := p.callbacks.length
  let p := p.modifyRegistry owner (·.register id)
  let p : Program := { p with callbacks := p.callbacks ++ [⟨callback, 0⟩] }
  (p.mark (.registered owner handle id), handle)

def cancel (p : Program) (owner : Owner) (handle : Nat) : Program :=
  (p.modifyRegistry owner (·.cancel handle)).mark (.cancelled owner handle)

/-- A run of a callback counts before it starts. -/
def enter (p : Program) (c : CallbackId) (m : Mark) : Program :=
  let callbacks := p.callbacks.modify c fun called => { called with runs := called.runs + 1 }
  { p with callbacks }.mark m

def addResolver (p : Program) (r : Resolver) : Program × ResolverId :=
  ({ p with resolvers := p.resolvers ++ [r] }, p.resolvers.length)

end Program
end LayeredSettings
