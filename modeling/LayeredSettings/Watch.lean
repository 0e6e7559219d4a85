import LayeredSettings.Resolver

/-!
Watches: the queues between a source of change events, the task that reloads, and the dispatcher
that runs callbacks.
-/

namespace LayeredSettings

inductive WatchEvent
  | changed
  | fault (message : String)
  deriving DecidableEq

/-- Where the events of a watch come from, and what comes of subscribing to them, which is decided
outside of the program. -/
inductive Notifier
  /-- Someone outside sends the events. -/
  | controlled
  /-- The subscription fails. -/
  | failing (fault : Fault)
  /-- Writing to the file of a path makes the events, if its directory can be watched. -/
  | file (path : String) (watchable : Bool)
  deriving DecidableEq

/-- Has nothing to subscribe to. -/
def Notifier.refusing : Notifier := .failing .noSource

/-- What there is on a file system: whether a directory can be watched is up to the system. -/
def Notifier.ofSystem (watchable : String → Bool) (source : Source) : Notifier :=
  .file source.path (watchable (FilePath.directory source.path))

structure Watch where
  resolver : ResolverId
  /-- The names of the file whose writing makes events, if there is one. -/
  hears : Option (List String) := none
  /-- Whether the notifier still holds its end of the event queue. -/
  isOpen : Bool := true
  stopRequested : Bool := false
  events : List WatchEvent := []
  /-- Whether the reload task has not ended yet. -/
  running : Bool := true
  /-- What the reload task published, waiting for the dispatcher. -/
  published : List Publication := []

namespace Watch

/-- An event that comes after the task has ended or the notifier was released is not accepted. -/
def accepts (w : Watch) : Bool := w.running && w.isOpen

def push (w : Watch) (e : WatchEvent) : Watch := { w with events := w.events ++ [e] }

def release (w : Watch) : Watch := { w with isOpen := false }

def requestStop (w : Watch) : Watch := { w with isOpen := false, stopRequested := true }

/-- Events that are still queued are lost. -/
def endTask (w : Watch) : Watch := { w with running := false, events := [] }

/-- Whether a task of a resolver that is still in use has reason to end. -/
def isOver (w : Watch) : Bool := w.stopRequested || (!w.isOpen && w.events.isEmpty)

/-- A directory that is removed takes its files out of hearing, for good. -/
def forget (w : Watch) (directory : List String) : Watch :=
  { w with hears := w.hears.filter (!directory.isPrefixOf ·) }

end Watch
end LayeredSettings
