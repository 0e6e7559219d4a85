import Mathlib.Data.List.Infix
import LayeredSettings.Program.Handles

/-!
Runs of a program.

A run is a list of steps in any order: calls through handles, events from outside, and the steps
that the tasks of watches take. What holds after every run holds however these take turns.
-/

namespace LayeredSettings

inductive Action
  | openFile (name path : String) (format : Option Format) (facts : Facts)
  | openDocument (name : String) (d : Document) (facts : Facts)
  | openConfig (name : String) (c : Config) (hasRuntime : Bool) (watchable : String → Bool)
  | clone (settings : Access) (copy : String)
  | drop (name : String)
  | install (settings : Access)
  | uninstall
  | getSafe (settings : Access) (path : List String)
  | subscribe (settings : Access) (name : String)
  | receive (name : String)
  | onUpdate (settings : Access) (name : String) (callback : Callback) (now : Bool)
  | cancelUpdate (settings : Access) (handle : String)
  | reload (settings : Access)
  | newRegistry (name : String)
  | registerIn (registry name : String) (callback : Callback)
  | cancelIn (registry handle : String)
  | invoke (registry : String)
  | startWatch (settings : Access) (name : String) (notifier : Source → Notifier)
    (hasRuntime : Bool)
  | stopWatch (settings : Access)
  /-- Stopping has begun; the reload task ends later, in a step of its own. -/
  | requestStop (settings : Access)
  | writeFile (path : String) (content : Option String)
  | replaceFile (path staging : String) (content : Option String)
  | removeDirectory (path : String)
  /-- Any other change to the files, of which no watch hears. -/
  | changeFiles (change : FileStore → FileStore)
  | send (watch : WatchId) (event : WatchEvent)
  | close (watch : WatchId)
  /-- The reload task of a watch takes an event. -/
  | takeEvent (watch : WatchId)
  /-- The reload task of a watch ends if it has reason to. -/
  | endTask (watch : WatchId)
  /-- The dispatcher of a watch takes a publication. -/
  | dispatch (watch : WatchId)

namespace Program

def holdHandle (p : Program) (name : String) (handle : Nat) : Program :=
  p.rename fun n => { n with handles := n.handles.insert name handle }

def holdReceiver (p : Program) (name : String) (r : Receiver) : Program :=
  p.rename fun n => { n with receivers := n.receivers.insert name r }

/-- Holds what was opened. -/
def holdOpened (name : String) : Program × Except Fault ResolverId → Program
  | (p, .ok i) => p.holdSettings name i
  | (p, .error _) => p

/-- Holds the notifier of a watch that was started. -/
def holdNotifier (name : String) : Program × Except Fault WatchId → Program
  | (p, .ok w) => p.rename fun n => { n with notifiers := n.notifiers.insert name w }
  | (p, .error _) => p

/-- Holds the handle of a callback, unless its first run panicked. -/
def holdRegistered (name : String) : Program × Outcome × Nat → Program
  | (p, .completed, handle) => p.holdHandle name handle
  | (p, .panicked _, _) => p

def addRegistry (p : Program) (name : String) : Program :=
  { p with
    registries := p.registries ++ [{}]
    names := { p.names with registries := p.names.registries.insert name p.registries.length } }

def registerIn (p : Program) (i : Nat) (name : String) (callback : Callback) : Program :=
  let (p, handle) := p.register (.registry i) callback
  p.holdHandle name handle

/-- Stopping has run to its end. -/
def stopAndLog (p : Program) (i : ResolverId) : Program :=
  match p.stopWatch i with
  | (p, true) => p.log (.watchStopped i)
  | (p, false) => p

/-- A program after a step. A call that refers to nothing does nothing. -/
def act (p : Program) : Action → Program
  | .openFile name path format facts => holdOpened name (p.openFile path format facts)
  | .openDocument name d facts =>
    let (p, i) := p.openDocument d facts
    p.holdSettings name i
  | .openConfig name c hasRuntime watchable => holdOpened name (p.openConfig c hasRuntime watchable)
  | .clone settings copy => p.rebind (.clone settings copy)
  | .drop name => p.rebind (.drop name)
  | .install settings => p.rebind (.install settings)
  | .uninstall => p.rebind .uninstall
  | .getSafe settings path => (p.reached settings).elim p fun i => (p.getSafe i path).1
  | .subscribe settings name =>
    (p.reached settings).elim p fun i => p.holdReceiver name (p.receiver i)
  | .receive name =>
    (p.names.receivers.get? name).elim p fun r => p.holdReceiver name (p.receiver r.resolver)
  | .onUpdate settings name callback now =>
    (p.reached settings).elim p fun i => holdRegistered name (p.onUpdate i callback now)
  | .cancelUpdate settings handle =>
    (p.reached settings).elim p fun i =>
      (p.names.handles.get? handle).elim p fun index => p.cancel (.resolver i) index
  | .reload settings => (p.reached settings).elim p fun i => (p.reload i).1
  | .newRegistry name => p.addRegistry name
  | .registerIn registry name callback =>
    (p.names.registries.get? registry).elim p fun i => p.registerIn i name callback
  | .cancelIn registry handle =>
    (p.names.registries.get? registry).elim p fun i =>
      (p.names.handles.get? handle).elim p fun index => p.cancel (.registry i) index
  | .invoke registry =>
    (p.names.registries.get? registry).elim p fun i => (p.invokeAll (.registry i)).1
  | .startWatch settings name notifier hasRuntime =>
    (p.reached settings).elim p fun i => holdNotifier name (p.startWatch i notifier hasRuntime)
  | .stopWatch settings => (p.reached settings).elim p p.stopAndLog
  | .requestStop settings => (p.reached settings).elim p fun i => (p.requestStop i).1
  | .writeFile path content => p.writeFile path content
  | .replaceFile path staging content => p.replaceFile path staging content
  | .removeDirectory path => p.removeDirectory path
  | .changeFiles change => { p with files := change p.files }
  | .send w e => (p.send w e).1
  | .close w => p.close w
  | .takeEvent w => p.handleEvent w
  | .endTask w => p.endTaskIfOver w
  | .dispatch w => p.dispatch w

def after (p : Program) (run : List Action) : Program := run.foldl act p

@[simp] theorem after_nil (p : Program) : p.after [] = p := rfl

@[simp] theorem after_append (p : Program) (run later : List Action) :
    p.after (run ++ later) = (p.after run).after later := List.foldl_append

@[simp] theorem after_cons (p : Program) (a : Action) (run : List Action) :
    p.after (a :: run) = (p.act a).after run := rfl

/-- A program after a run from its start. -/
def ofRun (run : List Action) : Program := ({} : Program).after run

theorem ofRun_concat (run : List Action) (a : Action) : ofRun (run ++ [a]) = (ofRun run).act a :=
  after_append _ run [a]

/-- At every point of a run, a handle is left of a resolver that exists by then. -/
def Held (i : ResolverId) (run : List Action) : Prop :=
  ∀ done, done <+: run → i < (ofRun done).resolvers.length → (ofRun done).inUse i = true

instance (i : ResolverId) (run : List Action) : Decidable (Held i run) :=
  decidable_of_iff
    (∀ done ∈ run.inits, i < (ofRun done).resolvers.length → (ofRun done).inUse i = true)
    (by simp only [Held, List.mem_inits])

theorem Held.before {i : ResolverId} {run : List Action} {a : Action}
    (held : Held i (run ++ [a])) : Held i run := fun done hdone =>
  held done (hdone.trans (List.prefix_append run [a]))

theorem Held.inUse {i : ResolverId} {run : List Action} (held : Held i run)
    (hi : i < (ofRun run).resolvers.length) : (ofRun run).inUse i = true :=
  held run List.prefix_rfl hi

/-- Whether some run goes from one state to the other. -/
def Leads (p q : Program) : Prop := ∃ run, p.after run = q

namespace Leads

theorem refl (p : Program) : Leads p p := ⟨[], rfl⟩

theorem trans {p q r : Program} (h : Leads p q) (h' : Leads q r) : Leads p r := by
  obtain ⟨run, rfl⟩ := h
  obtain ⟨later, rfl⟩ := h'
  exact ⟨run ++ later, after_append p run later⟩

theorem act (p : Program) (a : Action) : Leads p (p.act a) := ⟨[a], rfl⟩

theorem foldl {α : Type} {f : Program → α → Program} (hf : ∀ p a, Leads p (f p a)) (l : List α)
    (p : Program) : Leads p (l.foldl f p) := by
  induction l generalizing p with
  | nil => exact refl p
  | cons a l ih => exact (hf p a).trans (ih (f p a))

theorem repeated {f : Program → Program} (hf : ∀ p, Leads p (f p)) (n : Nat) (p : Program) :
    Leads p (Nat.repeat f n p) := by
  induction n with
  | zero => exact refl p
  | succ n ih => exact ih.trans (hf _)

theorem runTask (p : Program) (w : WatchId) : Leads p (p.runTask w) := by
  have hbefore := act p (.endTask w)
  have hevents := repeated (fun q => act q (.takeEvent w))
    (min turn (((p.endTaskIfOver w).watches[w]?.map (·.events.length)).getD 0)) (p.endTaskIfOver w)
  exact (hbefore.trans hevents).trans (act _ (.endTask w))

theorem runDispatcher (p : Program) (w : WatchId) : Leads p (p.runDispatcher w) :=
  repeated (fun q => act q (.dispatch w)) _ p

theorem runTasks (p : Program) : Leads p p.runTasks :=
  (foldl runTask _ p).trans (foldl runDispatcher _ _)

/-- Where all tasks run until nothing is left to do, they have taken turns in one of the possible
ways. -/
theorem settle (p : Program) : Leads p p.settle := repeated runTasks _ p

end Leads
end Program
end LayeredSettings
