import LayeredSettings.Proofs.Program.Action
import LayeredSettings.Proofs.Program.EventReload

/-!
Calls and tasks as processes that go on step by step.

A callback, a round, or a step of a task consists of operations, each of which happens at once, and
between which others may take their turns. A process says which operation comes next, depending on
what its earlier operations found. Carried out alone it does what the step does.

A process may hold references to resolvers of its own: a call holds the resolver that it goes
through, and a task holds one from when it finds it alive until it is done with it.
-/

namespace LayeredSettings

open Program

/-- What happens at once. -/
inductive Operation
  /-- Something is looked up. -/
  | look
  | note (o : Occurrence)
  | mark (m : Mark)
  | enter (c : CallbackId) (m : Mark)
  | register (owner : Owner) (callback : Callback)
  | cancel (owner : Owner) (handle : Nat)
  /-- A document is loaded again and published, while the lock is held. -/
  | reload (i : ResolverId)
  | changeFiles (change : FileStore → FileStore)
  | removeDirectory (path : String)
  | openFile (path : String) (format : Option Format) (facts : Facts)
  | openDocument (d : Document) (facts : Facts)
  | addRegistry
  | holdSettings (name : String) (i : ResolverId)
  | dropSettings (name : String)
  | install (installed : Option ResolverId)
  | holdRegistry (name : String) (i : Nat)
  | holdHandle (name : String) (handle : Nat)
  | holdNotifier (name : String) (w : WatchId)
  /-- A subscriber that is held under a name is brought up to date. -/
  | follow (name : String) (i : ResolverId)
  /-- It is checked whether a watch is running, and one is started, while the lock is held. -/
  | startWatch (i : ResolverId) (notifier : Source → Notifier) (hasRuntime : Bool)
  | requestStop (i : ResolverId)
  | send (w : WatchId) (event : WatchEvent)
  | close (w : WatchId)
  | takeEvent (w : WatchId)
  | endTask (w : WatchId)
  | queue (w : WatchId) (published : Publication)
  | takePublication (w : WatchId)
  /-- A dispatcher gives up what is left for it. -/
  | discard (w : WatchId)

def Operation.effect : Operation → Program → Program
  | .look, p => p
  | .note o, p => p.note o
  | .mark m, p => p.mark m
  | .enter c m, p => p.enter c m
  | .register owner callback, p => (p.register owner callback).1
  | .cancel owner handle, p => p.cancel owner handle
  | .reload i, p => (p.reloadDocument i).1
  | .changeFiles change, p => { p with files := change p.files }
  | .removeDirectory path, p => p.removeDirectory path
  | .openFile path format facts, p => (p.openFile path format facts).1
  | .openDocument d facts, p => (p.openDocument d facts).1
  | .addRegistry, p => { p with registries := p.registries ++ [{}] }
  | .holdSettings name i, p => p.holdSettings name i
  | .dropSettings name, p => p.rename fun n => { n with settings := n.settings.erase name }
  | .install installed, p => { p with installed }
  | .holdRegistry name i, p => p.rename fun n => { n with registries := n.registries.insert name i }
  | .holdHandle name handle, p => p.holdHandle name handle
  | .holdNotifier name w, p => p.rename fun n => { n with notifiers := n.notifiers.insert name w }
  | .follow name i, p => p.holdReceiver name (p.receiver i)
  | .startWatch i notifier hasRuntime, p => (p.startWatch i notifier hasRuntime).1
  | .requestStop i, p => (p.requestStop i).1
  | .send w event, p => (p.send w event).1
  | .close w, p => p.close w
  | .takeEvent w, p => p.modifyWatch w fun watch => { watch with events := watch.events.tail }
  | .endTask w, p => p.endTask w
  | .queue w published, p =>
    p.modifyWatch w fun watch => { watch with published := watch.published ++ [published] }
  | .takePublication w, p =>
    p.modifyWatch w fun watch => { watch with published := watch.published.tail }
  | .discard w, p => p.modifyWatch w fun watch => { watch with published := [] }

/-- A round of the callbacks of a resolver, and the publication that caused it. -/
structure Round where
  resolver : ResolverId
  published : Publication

/-- What remains to be done, up to an answer. Every operation belongs to the rounds during which it
happens, and as long as it is still to come, some resolvers are held. What comes after it depends on
the program it found and on which resolvers were alive then. -/
inductive Process (α : Type) : Type
  | ended (answer : α)
  | step (rounds : List Round) (held : List ResolverId) (op : Operation)
    (next : Program → (ResolverId → Bool) → Process α)

/-- The resolver to which callbacks belong. -/
def Owner.references : Owner → List ResolverId
  | .resolver i => [i]
  | .registry _ => []

namespace Process

variable {α β : Type}

def bind : Process α → (α → Process β) → Process β
  | .ended a, f => f a
  | .step rounds held op next, f => .step rounds held op fun p alive => (next p alive).bind f

instance : Monad Process where
  pure := ended
  bind := bind

/-- One operation, and what is told by the program it found. -/
def once (op : Operation) (f : Program → α) : Process α :=
  .step [] [] op fun p _ => .ended (f p)

def see (f : Program → α) : Process α := once .look f

/-- A task looks at what is alive. -/
def seeAlive (f : Program → (ResolverId → Bool) → α) : Process α :=
  .step [] [] .look fun p alive => .ended (f p alive)

def does (op : Operation) : Process Unit := once op fun _ => ()

/-- Goes on with what is found, if anything is. -/
def found (f : Program → Option α) (next : α → Process β) : Process (Option β) := do
  match ← see f with
  | none => return none
  | some a =>
    let b ← next a
    return some b

/-- All of a process happens during a round. -/
def within (round : Round) : Process α → Process α
  | .ended a => .ended a
  | .step rounds held op next => .step (round :: rounds) held op fun p alive =>
    (next p alive).within round

/-- All of a process happens while some resolvers are held. -/
def holding (references : List ResolverId) : Process α → Process α
  | .ended a => .ended a
  | .step rounds held op next => .step rounds (references ++ held) op fun p alive =>
    (next p alive).holding references

/-- Goes on with the settings that are reached, if any are, and holds them all the while. -/
def reaching (settings : Access) (next : ResolverId → Process β) : Process (Option β) :=
  found (·.reached settings) fun i => holding [i] (next i)

/-- The rounds that the next operation belongs to. -/
def rounds : Process α → List Round
  | .ended _ => []
  | .step rounds _ _ _ => rounds

/-- The resolvers that are held for now. -/
def held : Process α → List ResolverId
  | .ended _ => []
  | .step _ held _ _ => held

theorem held_within (round : Round) (x : Process α) : (x.within round).held = x.held := by
  cases x <;> rfl

theorem mem_held_holding {references : List ResolverId} {x : Process α} {i : ResolverId}
    (member : i ∈ (x.holding references).held) : i ∈ references ∨ i ∈ x.held := by
  cases x with
  | ended a => cases member
  | step rounds held op next => exact List.mem_append.1 member

/-- Nothing else happens until the answer is there, and nobody else holds a resolver. -/
def finish : Process α → Program → Program × α
  | .ended a, p => (p, a)
  | .step _ _ op next, p => (next p p.inUse).finish (op.effect p)

/-! ## Callbacks and rounds -/

/-- How a callback is called. -/
abbrev Caller := CallbackId → Mark → Process Outcome

section
variable (call : Caller)

def callEach (round : Nat) : List (Nat × CallbackId) → Nat → Process Nat
  | [], completed => pure completed
  | slot :: slots, completed => do
    match ← call slot.2 (.called round slot.1 slot.2) with
    | .completed =>
      does (.mark (.completed round slot.1))
      callEach round slots (completed + 1)
    | .panicked message =>
      does (.note (.logged (.panicked slot.1 message)))
      callEach round slots completed

def invokeAll (owner : Owner) : Process Nat := do
  let began ← once (.mark (.began owner)) fun p => (p.journal.length, (p.registry owner).live)
  let completed ← callEach call began.1 began.2 0
  does (.mark (.ended began.1 completed))
  return completed

/-- The round that a publication causes. -/
def announce (i : ResolverId) (published : Publication) : Process Unit :=
  within ⟨i, published⟩ do
    let completed ← invokeAll call (.resolver i)
    does (.note (.logged
      (.invoked i published.number published.document.version completed)))

def reload (i : ResolverId) : Process (Except Fault Int64) := do
  match ← once (.reload i) fun p => (p.reloadDocument i).2 with
  | .error fault => return .error fault
  | .ok published =>
    announce call i published
    return .ok published.document.version

def registerAndCall (owner : Owner) (callback : Callback) : Process (Outcome × Nat) := do
  let registered ← once (.register owner callback) fun p =>
    ((p.registry owner).size, p.callbacks.length)
  let outcome ← call registered.2 (.calledAtOnce registered.2)
  return (outcome, registered.1)

end

def cancelEach (handle : Nat) : List Owner → Process Unit
  | [] => return ()
  | owner :: owners => do
    does (.cancel owner handle)
    cancelEach handle owners

def rebind : Rebinding → Process Unit
  | .clone settings copy => do
    let _ ← reaching settings fun i => does (.holdSettings copy i)
  | .drop name => does (.dropSettings name)
  | .install settings => do
    let _ ← reaching settings fun i => does (.install (some i))
  | .uninstall => does (.install none)

def perform (inner : Option Caller) : Script → Process Outcome
  | .done => return .completed
  | .panic message => return .panicked message
  | .record text next => do
    does (.note (.recorded text))
    perform inner next
  | .version settings next => do
    let version? ← see fun p =>
      (p.names.settings.get? settings).bind fun i => p.resolvers[i]?.map Resolver.version
    perform inner (next version?)
  | .handle name next => do
    let handle? ← see fun p => p.names.handles.get? name
    perform inner (next handle?)
  | .cancel owner handle next => do
    let owners ← see fun p => p.ownersNamed owner
    holding (owners.flatMap Owner.references) (cancelEach handle owners)
    perform inner next
  | .register owner callback now next => do
    match ← see fun p => (p.ownersNamed owner).head? with
    | none => perform inner (next none)
    | some first =>
      if now then
        match inner with
        | none => return .panicked none
        | some call =>
          let called ← holding first.references (registerAndCall call first callback)
          match called.1 with
          | .completed => perform inner (next (some called.2))
          | .panicked message => return .panicked message
      else
        let handle ← holding first.references
          (once (.register first callback) fun p => (p.registry first).size)
        perform inner (next (some handle))
  | .invoke registry next => do
    match ← see fun p => p.names.registries.get? registry with
    | none => perform inner (next none)
    | some i =>
      match inner with
      | none => return .panicked none
      | some call =>
        let completed ← invokeAll call (.registry i)
        perform inner (next (some completed))
  | .reload settings next => do
    match ← see fun p => p.names.settings.get? settings with
    | none => perform inner (next none)
    | some i =>
      match inner with
      | none => return .panicked none
      | some call =>
        let answer ← holding [i] (reload call i)
        perform inner (next (some answer))
  | .rebind change next => do
    rebind change
    perform inner next

/-- A run of a callback, which gets its number when it begins. -/
def callOnce (inner : Option Caller) : Caller := fun c m => do
  let script? ← once (.enter c m) fun p =>
    (p.enter c m).callbacks[c]?.map fun called => called.callback called.runs
  script?.elim (pure .completed) (perform inner)

def callWithin : (depth : Nat) → Caller
  | 0 => callOnce none
  | depth + 1 => callOnce (some (callWithin depth))

def call : Caller := callWithin nestingLimit

/-! ## Tasks and calls -/

/-- A reload that leaves the round to the dispatcher of a watch. -/
def reloadQueued (w : WatchId) (i : ResolverId) : Process Unit := do
  match ← once (.reload i) fun p => (p.reloadDocument i).2 with
  | .ok published => does (.queue w published)
  | .error fault =>
    let version? ← see fun p => p.resolvers[i]?.map Resolver.version
    does (.note (.logged (.reloadFailed i fault (version?.getD 0))))

/-- What the reload task of a watch does about a change of the file. -/
def handleChange (w : WatchId) (i : ResolverId) : Process Unit := do
  let alive ← seeAlive fun p alive => alive i && p.resolvers[i]?.isSome
  if alive then holding [i] (reloadQueued w i) else does (.endTask w)

/-- The reload task takes the next event. -/
def handleEvent (w : WatchId) : Process Unit := do
  let taken? ← once (.takeEvent w) fun p =>
    p.watches[w]?.bind fun watch => watch.events.head?.map (watch.resolver, ·)
  match taken? with
  | none => return ()
  | some (_, .fault message) => does (.note (.logged (.watchFault message)))
  | some (i, .changed) => handleChange w i

/-- The dispatcher takes the next publication. -/
def dispatch (w : WatchId) : Process Unit := do
  let taken? ← once (.takePublication w) fun p =>
    p.watches[w]?.bind fun watch => watch.published.head?.map (watch.resolver, ·)
  match taken? with
  | none => return ()
  | some (i, published) =>
    let alive ← seeAlive fun _ alive => alive i
    if alive then holding [i] (announce call i published) else does (.discard w)

def onUpdate (i : ResolverId) (callback : Callback) (now : Bool) : Process (Outcome × Nat) :=
  if now then registerAndCall call (.resolver i) callback
  else
    once (.register (.resolver i) callback) fun p =>
      (.completed, (p.registry (.resolver i)).size)

def holdRegistered (name : String) (registered : Outcome × Nat) : Process Unit :=
  match registered.1 with
  | .completed => does (.holdHandle name registered.2)
  | .panicked _ => return ()

def holdNotifier (name : String) : Except Fault WatchId → Process Unit
  | .ok w => does (.holdNotifier name w)
  | .error _ => return ()

def openFile (path : String) (format : Option Format) (facts : Facts) :
    Process (Except Fault ResolverId) :=
  once (.openFile path format facts) fun p => (p.openFile path format facts).2

def startWatch (i : ResolverId) (notifier : Source → Notifier) (hasRuntime : Bool) :
    Process (Except Fault WatchId) :=
  once (.startWatch i notifier hasRuntime) fun p => (p.startWatch i notifier hasRuntime).2

/-- Goes on with what was opened, if anything was, and holds it all the while. -/
def opening (next : ResolverId → Process Unit) : Except Fault ResolverId → Process Unit
  | .ok i => holding [i] (next i)
  | .error _ => return ()

/-- Watches what was opened if the configuration says so. It is kept only if that works. -/
def watchOpened (name : String) (c : Config) (hasRuntime : Bool) (watchable : String → Bool)
    (i : ResolverId) : Process Unit :=
  if c.watch.enabled then do
    match ← startWatch i (.ofSystem watchable) hasRuntime with
    | .ok _ => does (.holdSettings name i)
    | .error _ => return ()
  else does (.holdSettings name i)

def openConfig (name : String) (c : Config) (hasRuntime : Bool) (watchable : String → Bool) :
    Process Unit :=
  match c.facts with
  | .error _ => return ()
  | .ok facts => do
    let opened ← openFile c.path c.format facts
    opening (watchOpened name c hasRuntime watchable) opened

def getSafe (i : ResolverId) (path : List String) : Process Unit := do
  let missing? ← see fun p =>
    p.resolvers[i]?.bind fun r => if (r.resolve? path).isSome then none else some r.version
  match missing? with
  | none => return ()
  | some version => does (.note (.logged (.settingMissing path version)))

def stopAndLog (i : ResolverId) : Process Unit := do
  match ← once (.requestStop i) fun p => (p.requestStop i).2 with
  | none => return ()
  | some w =>
    does (.endTask w)
    does (.note (.logged (.watchStopped i)))

def notifyEach (names : Option (List String)) : List WatchId → Process Unit
  | [] => return ()
  | w :: watches => do
    let hears ← see fun p =>
      p.watches[w]?.any fun watch => watch.hears.isSome && watch.hears = names
    if hears then does (.send w .changed)
    notifyEach names watches

def notify (names : Option (List String)) : Process Unit := do
  let watches ← see fun p => List.range p.watches.length
  notifyEach names watches

def changeFile (path : String) (change : FileStore → FileStore) : Process Unit := do
  let names ← once (.changeFiles change) fun p => p.files.place? path
  notify names

def endTaskIfOver (w : WatchId) : Process Unit := do
  let ended ← seeAlive fun p alive =>
    p.watches[w]?.any fun watch => watch.isOver || !alive watch.resolver
  if ended then does (.endTask w)

def silently (x : Process α) : Process (Option (Except Fault Int64)) := do
  let _ ← x
  return none

/-- What a step does, one operation after the other, with the answer that a reload gives. -/
def ofAction : Action → Process (Option (Except Fault Int64))
  | .openFile name path format facts => silently do
    let opened ← openFile path format facts
    opening (fun i => does (.holdSettings name i)) opened
  | .openDocument name d facts => silently do
    let i ← once (.openDocument d facts) fun p => p.resolvers.length
    holding [i] (does (.holdSettings name i))
  | .openConfig name c hasRuntime watchable => silently (openConfig name c hasRuntime watchable)
  | .clone settings copy => silently (rebind (.clone settings copy))
  | .drop name => silently (rebind (.drop name))
  | .install settings => silently (rebind (.install settings))
  | .uninstall => silently (rebind .uninstall)
  | .getSafe settings path => silently (reaching settings fun i => getSafe i path)
  | .subscribe settings name => silently (reaching settings fun i => does (.follow name i))
  | .receive name =>
    silently (found (·.names.receivers.get? name) fun r => does (.follow name r.resolver))
  | .onUpdate settings name callback now =>
    silently (reaching settings fun i => do
      let registered ← onUpdate i callback now
      holdRegistered name registered)
  | .cancelUpdate settings handle =>
    silently (reaching settings fun i =>
      found (·.names.handles.get? handle) fun index => does (.cancel (.resolver i) index))
  | .reload settings => reaching settings fun i => reload call i
  | .newRegistry name => silently do
    let i ← once .addRegistry fun p => p.registries.length
    does (.holdRegistry name i)
  | .registerIn registry name callback =>
    silently (found (·.names.registries.get? registry) fun i => do
      let handle ← once (.register (.registry i) callback) fun p => (p.registry (.registry i)).size
      does (.holdHandle name handle))
  | .cancelIn registry handle =>
    silently (found (·.names.registries.get? registry) fun i =>
      found (·.names.handles.get? handle) fun index => does (.cancel (.registry i) index))
  | .invoke registry =>
    silently (found (·.names.registries.get? registry) fun i => invokeAll call (.registry i))
  | .startWatch settings name notifier hasRuntime =>
    silently (reaching settings fun i => do
      let started ← startWatch i notifier hasRuntime
      holdNotifier name started)
  | .stopWatch settings => silently (reaching settings fun i => stopAndLog i)
  | .requestStop settings => silently (reaching settings fun i => does (.requestStop i))
  | .writeFile path content => silently (changeFile path (·.write path content))
  | .replaceFile path staging content => silently do
    changeFile staging (·.write staging content)
    changeFile path (·.moveFile staging path)
  | .removeDirectory path => silently (does (.removeDirectory path))
  | .changeFiles change => silently (does (.changeFiles change))
  | .send w event => silently (does (.send w event))
  | .close w => silently (does (.close w))
  | .takeEvent w => silently (handleEvent w)
  | .endTask w => silently (endTaskIfOver w)
  | .dispatch w => silently (dispatch w)

/-! ## Processes to which nothing else happens -/

@[simp] theorem finish_once (op : Operation) (f : Program → α) (p : Program) :
    (once op f).finish p = (op.effect p, f p) := rfl

@[simp] theorem finish_see (f : Program → α) (p : Program) : (see f).finish p = (p, f p) := rfl

@[simp] theorem finish_seeAlive (f : Program → (ResolverId → Bool) → α) (p : Program) :
    (seeAlive f).finish p = (p, f p p.inUse) := rfl

@[simp] theorem finish_does (op : Operation) (p : Program) :
    (does op).finish p = (op.effect p, ()) := rfl

@[simp] theorem finish_bind (x : Process α) (f : α → Process β) (p : Program) :
    (x >>= f).finish p = (f (x.finish p).2).finish (x.finish p).1 := by
  induction x generalizing p with
  | ended a => rfl
  | step rounds held op next ih => exact ih p p.inUse (op.effect p)

@[simp] theorem finish_holding (references : List ResolverId) (x : Process α) (p : Program) :
    (x.holding references).finish p = x.finish p := by
  induction x generalizing p with
  | ended a => rfl
  | step rounds held op next ih => exact ih p p.inUse (op.effect p)

@[simp] theorem finish_within (round : Round) (x : Process α) (p : Program) :
    (x.within round).finish p = x.finish p := by
  induction x generalizing p with
  | ended a => rfl
  | step rounds held op next ih => exact ih p p.inUse (op.effect p)

/-- Callbacks are called in a way that comes to how they are run. -/
def Follows (call : Caller) (run : Runner) : Prop :=
  ∀ c m p, (call c m).finish p = run (p.enter c m) c

section
variable {call : Caller} {run : Runner} (follows : Follows call run)
include follows

theorem finish_callEach (round : Nat) (slots : List (Nat × CallbackId)) (n : Nat) (p : Program) :
    (callEach call round slots n).finish p = slots.foldl (invokeNext run round) (p, n) := by
  induction slots generalizing n p with
  | nil => rfl
  | cons slot slots ih =>
    have called := follows slot.2 (.called round slot.1 slot.2) p
    rw [List.foldl_cons, callEach, finish_bind, called, invokeNext]
    cases run (p.enter slot.2 (.called round slot.1 slot.2)) slot.2 with
    | mk q outcome =>
      cases outcome with
      | completed => exact ih (n + 1) _
      | panicked message => exact ih n _

theorem finish_invokeAll (owner : Owner) (p : Program) :
    (invokeAll call owner).finish p = p.invokeAllWith run owner := by
  simp only [invokeAll, finish_bind, finish_once, finish_callEach follows]
  rfl

theorem finish_announce (i : ResolverId) (published : Publication) (p : Program) :
    (announce call i published).finish p = (p.announceWith run i published, ()) := by
  rw [announce, finish_within, finish_bind, finish_invokeAll follows]
  rfl

theorem finish_reload (i : ResolverId) (p : Program) :
    (reload call i).finish p = p.reloadWith run i := by
  rw [reload, finish_bind, finish_once, reloadWith]
  dsimp only [Operation.effect]
  cases p.reloadDocument i with
  | mk q answer =>
    cases answer with
    | error fault => rfl
    | ok published =>
      dsimp only
      rw [finish_bind, finish_announce follows]
      rfl

theorem finish_registerAndCall (owner : Owner) (callback : Callback) (p : Program) :
    (registerAndCall call owner callback).finish p = p.registerAndCall run owner callback := by
  simp only [registerAndCall, finish_bind, finish_once, follows p.callbacks.length]
  rfl

end

theorem finish_cancelEach (handle : Nat) (owners : List Owner) (p : Program) :
    (cancelEach handle owners).finish p = (owners.foldl (·.cancel · handle) p, ()) := by
  induction owners generalizing p with
  | nil => rfl
  | cons owner owners ih => exact ih (p.cancel owner handle)

theorem fst_finish_found (f : Program → Option α) (next : α → Process β) (p : Program) :
    ((found f next).finish p).1 = (f p).elim p fun a => ((next a).finish p).1 := by
  rw [found, finish_bind, finish_see]
  cases f p with
  | none => rfl
  | some a => exact congrArg Prod.fst (finish_bind ..)

theorem fst_finish_reaching (settings : Access) (next : ResolverId → Process β) (p : Program) :
    ((reaching settings next).finish p).1 =
      (p.reached settings).elim p fun i => ((next i).finish p).1 := by
  simp only [reaching, fst_finish_found, finish_holding]

theorem finish_rebind (change : Rebinding) (p : Program) :
    (rebind change).finish p = (p.rebind change, ()) := by
  cases change with
  | clone settings copy =>
    rw [rebind, finish_bind, fst_finish_reaching]
    rfl
  | drop name => rfl
  | install settings =>
    rw [rebind, finish_bind, fst_finish_reaching]
    rfl
  | uninstall => rfl

theorem finish_perform {inner : Option Caller} {inner' : Option Runner}
    (follows : Option.Rel Follows inner inner') (script : Script) (p : Program) :
    (perform inner script).finish p = Program.perform inner' script p := by
  -- On the script alone: `follows` tells of calls inside of it that they come to the same.
  induction script generalizing p with
  | done => rfl
  | panic message => rfl
  | record text next ih => exact ih (p.record text)
  | version settings next ih => exact ih _ p
  | handle name next ih => exact ih _ p
  | cancel owner handle next ih =>
    rw [perform, finish_bind, finish_bind, finish_holding, finish_cancelEach]
    exact ih _
  | register owner callback now next _ ih =>
    rw [perform, finish_bind, finish_see, Program.perform]
    cases (p.ownersNamed owner).head? with
    | none => exact ih _ p
    | some first =>
      cases now with
      | false => exact ih _ _
      | true =>
        cases follows with
        | none => rfl
        | @some call run follows =>
          simp only [if_true, finish_bind, finish_holding, finish_registerAndCall follows]
          obtain ⟨q, outcome, handle⟩ := p.registerAndCall run first callback
          cases outcome with
          | completed => exact ih _ q
          | panicked message => rfl
  | invoke registry next ih =>
    rw [perform, finish_bind, finish_see, Program.perform]
    cases p.names.registries.get? registry with
    | none => exact ih _ p
    | some i =>
      cases follows with
      | none => rfl
      | some follows =>
        dsimp only
        rw [finish_bind, finish_invokeAll follows]
        exact ih _ _
  | reload settings next ih =>
    rw [perform, finish_bind, finish_see, Program.perform]
    cases p.names.settings.get? settings with
    | none => exact ih _ p
    | some i =>
      cases follows with
      | none => rfl
      | some follows =>
        dsimp only
        rw [finish_bind, finish_holding, finish_reload follows]
        exact ih _ _
  | rebind change next ih =>
    rw [perform, finish_bind, finish_rebind]
    exact ih _

theorem follows_callOnce {inner : Option Caller} {inner' : Option Runner}
    (follows : Option.Rel Follows inner inner') :
    Follows (callOnce inner) (runWithin.runOnce inner') := by
  intro c m p
  rw [callOnce, finish_bind, finish_once, runWithin.runOnce]
  dsimp only [Operation.effect]
  cases (p.enter c m).callbacks[c]? with
  | none => rfl
  | some called => exact finish_perform follows _ _

theorem follows_callWithin (depth : Nat) : Follows (callWithin depth) (runWithin depth) := by
  induction depth with
  | zero => exact follows_callOnce .none
  | succ depth ih => exact follows_callOnce (.some ih)

theorem follows_call : Follows call run := follows_callWithin nestingLimit

/-! ## Steps -/

theorem finish_onUpdate (i : ResolverId) (callback : Callback) (now : Bool) (p : Program) :
    (onUpdate i callback now).finish p = p.onUpdate i callback now := by
  cases now with
  | false => rfl
  | true => exact finish_registerAndCall follows_call (.resolver i) callback p

theorem finish_holdRegistered (name : String) (registered : Outcome × Nat) (p : Program) :
    (holdRegistered name registered).finish p =
      (Program.holdRegistered name (p, registered), ()) := by
  obtain ⟨outcome, handle⟩ := registered
  cases outcome <;> rfl

/-- Nothing changes if a queue is empty or there is no watch. -/
theorem modifyWatch_eq_self_of {p : Program} {w : WatchId} {f : Watch → Watch}
    (same : ∀ watch, p.watches[w]? = some watch → f watch = watch) : p.modifyWatch w f = p := by
  unfold modifyWatch
  rw [modify_eq_self_of same]

/-- What `handleEvent` does about a change of the file. -/
theorem finish_handleChange (w : WatchId) (i : ResolverId) (p : Program) :
    (handleChange w i).finish p =
      (match p.inUse i, p.resolvers[i]? with
        | true, some r =>
          match p.reloadDocument i with
          | (p, .ok published) =>
            p.modifyWatch w fun watch => { watch with published := watch.published ++ [published] }
          | (p, .error fault) => p.log (.reloadFailed i fault r.version)
        | _, _ => p.endTask w, ()) := by
  split
  · rename_i r inUse found
    rw [handleChange, finish_bind, finish_seeAlive]
    simp only [inUse, found, Bool.true_and, Option.isSome_some, if_true, finish_holding,
      reloadQueued, finish_bind, finish_once, Operation.effect]
    cases answered : p.reloadDocument i with
    | mk q answer =>
      cases answer with
      | ok published => rfl
      | error fault =>
        obtain rfl := reloadDocument_eq_error answered
        simp only [finish_bind, finish_see, found, Option.map_some, Option.getD_some]
        rfl
  · rename_i dead
    have gone : (p.inUse i && p.resolvers[i]?.isSome) = false := by
      cases found : p.resolvers[i]? with
      | none => exact Bool.and_false _
      | some r =>
        rw [Option.isSome_some, Bool.and_true, Bool.eq_false_iff]
        exact fun inUse => dead r inUse found
    rw [handleChange, finish_bind, finish_seeAlive]
    simp only [gone, Bool.false_eq_true, if_false]
    rfl

theorem finish_handleEvent (w : WatchId) (p : Program) :
    (handleEvent w).finish p = (p.handleEvent w, ()) := by
  rw [handleEvent, finish_bind, finish_once, Program.handleEvent]
  cases found : p.watches[w]? with
  | none =>
    have same : (Operation.takeEvent w).effect p = p :=
      modifyWatch_eq_self_of fun watch held => absurd held (by simp [found])
    rw [same]
    rfl
  | some watch =>
    cases waiting : watch.events with
    | nil =>
      -- The tail of an empty queue is the queue.
      have same : (Operation.takeEvent w).effect p = p := by
        refine modifyWatch_eq_self_of fun other held => ?_
        cases found.symm.trans held
        rw [waiting, List.tail_nil, ← waiting]
      simp only [same, Option.bind_some, waiting, List.head?_nil, Option.map_none]
      rfl
    | cons event later =>
      have taken : (Operation.takeEvent w).effect p =
          p.modifyWatch w fun watch => { watch with events := later } := by
        refine modifyWatch_congr found ?_
        rw [waiting, List.tail_cons]
      simp only [taken, Option.bind_some, waiting, List.head?_cons, Option.map_some]
      cases event with
      | fault message => rfl
      | changed => exact finish_handleChange w watch.resolver _

theorem finish_dispatch (w : WatchId) (p : Program) :
    (dispatch w).finish p = (p.dispatch w, ()) := by
  rw [dispatch, finish_bind, finish_once, Program.dispatch]
  cases found : p.watches[w]? with
  | none =>
    have same : (Operation.takePublication w).effect p = p :=
      modifyWatch_eq_self_of fun watch held => absurd held (by simp [found])
    rw [same]
    rfl
  | some watch =>
    cases waiting : watch.published with
    | nil =>
      have same : (Operation.takePublication w).effect p = p := by
        refine modifyWatch_eq_self_of fun other held => ?_
        cases found.symm.trans held
        rw [waiting, List.tail_nil, ← waiting]
      simp only [same, Option.bind_some, waiting, List.head?_nil, Option.map_none]
      rfl
    | cons next later =>
      have taken : (Operation.takePublication w).effect p =
          p.modifyWatch w fun watch => { watch with published := later } := by
        refine modifyWatch_congr found ?_
        rw [waiting, List.tail_cons]
      have left : (p.modifyWatch w fun watch => { watch with published := later }).inUse
          watch.resolver = p.inUse watch.resolver := rfl
      simp only [taken, Option.bind_some, waiting, List.head?_cons, Option.map_some, finish_bind,
        finish_seeAlive, left]
      cases p.inUse watch.resolver with
      | true =>
        rw [if_pos rfl, if_pos rfl, finish_holding]
        exact finish_announce follows_call watch.resolver next _
      | false =>
        -- Taken here are one publication and then the rest, and all at once there.
        show (Program.modifyWatch _ w _, ()) = _
        rw [modifyWatch_modifyWatch]
        rfl

@[simp] theorem finish_silently (x : Process α) (p : Program) :
    (silently x).finish p = ((x.finish p).1, none) := finish_bind ..

theorem finish_holdNotifier (name : String) (started : Program × Except Fault WatchId) :
    ((holdNotifier name started.2).finish started.1).1 = Program.holdNotifier name started := by
  obtain ⟨p, answer⟩ := started
  cases answer <;> rfl

theorem finish_openConfig (name : String) (c : Config) (hasRuntime : Bool)
    (watchable : String → Bool) (p : Program) :
    ((openConfig name c hasRuntime watchable).finish p).1 =
      holdOpened name (p.openConfig c hasRuntime watchable) := by
  unfold openConfig Program.openConfig
  cases c.facts with
  | error fault => rfl
  | ok facts =>
    dsimp only
    rw [finish_bind, openFile, finish_once]
    dsimp only [Operation.effect]
    cases p.openFile c.path c.format facts with
    | mk q answer =>
      cases answer with
      | error fault => rfl
      | ok i =>
        simp only [opening, finish_holding, watchOpened]
        cases c.watch.enabled with
        | false => rfl
        | true =>
          simp only [if_true, finish_bind, startWatch, finish_once, Operation.effect, watchFile]
          cases q.startWatch i (.ofSystem watchable) hasRuntime with
          | mk r started => cases started <;> rfl

theorem finish_getSafe (i : ResolverId) (path : List String) (p : Program) :
    ((getSafe i path).finish p).1 = (p.getSafe i path).1 := by
  rw [getSafe, finish_bind, finish_see, Program.getSafe]
  cases p.resolvers[i]? with
  | none => rfl
  | some r =>
    simp only [Option.bind_some]
    cases r.resolve? path <;> rfl

theorem finish_stopAndLog (i : ResolverId) (p : Program) :
    ((stopAndLog i).finish p).1 = p.stopAndLog i := by
  rw [stopAndLog, finish_bind, finish_once, Program.stopAndLog, Program.stopWatch]
  dsimp only [Operation.effect]
  cases p.requestStop i with
  | mk q stopped => cases stopped <;> rfl

theorem finish_notifyEach (names : Option (List String)) (watches : List WatchId) (p : Program) :
    ((notifyEach names watches).finish p).1 = watches.foldl
      (fun p w =>
        if p.watches[w]?.any fun watch => watch.hears.isSome && watch.hears = names then
          (p.send w .changed).1
        else p) p := by
  induction watches generalizing p with
  | nil => rfl
  | cons w watches ih =>
    rw [notifyEach, finish_bind, finish_see, List.foldl_cons]
    dsimp only
    split
    · rw [finish_bind, finish_does, ih]
      rfl
    · exact ih p

theorem finish_changeFile (path : String) (change : FileStore → FileStore) (p : Program) :
    ((changeFile path change).finish p).1 =
      Program.notify { p with files := change p.files } (p.files.place? path) := by
  rw [changeFile, finish_bind, finish_once, notify, finish_bind, finish_see, finish_notifyEach]
  rfl

theorem finish_endTaskIfOver (w : WatchId) (p : Program) :
    ((endTaskIfOver w).finish p).1 = p.endTaskIfOver w := by
  rw [endTaskIfOver, finish_bind, finish_seeAlive, Program.endTaskIfOver]
  show Prod.fst (Process.finish (if p.taskIsOver w then _ else _) p) = _
  split <;> rfl

/-- The answer of a reload by hand, if there is something to reload. -/
def answer (p : Program) : Action → Option (Except Fault Int64)
  | .reload settings => (p.reached settings).map fun i => (p.reload i).2
  | _ => none

/-- The operations of a step without anything between them are the step. -/
theorem finish_ofAction (a : Action) (p : Program) :
    (ofAction a).finish p = (p.act a, answer p a) := by
  cases a with
  | reload settings =>
    show _ = ((p.reached settings).elim p fun i => (p.reload i).1,
      (p.reached settings).map fun i => (p.reload i).2)
    rw [ofAction, reaching, found, finish_bind, finish_see]
    cases p.reached settings with
    | none => rfl
    | some i =>
      dsimp only
      rw [finish_bind, finish_holding, finish_reload follows_call]
      rfl
  | openFile name path format facts =>
    rw [ofAction, finish_silently, finish_bind, openFile, finish_once]
    refine congrArg (·, none) ?_
    show (Process.finish _ (p.openFile path format facts).1).1 =
      holdOpened name (p.openFile path format facts)
    cases p.openFile path format facts with
    | mk q answer => cases answer <;> rfl
  | openDocument name d facts =>
    rw [ofAction, finish_silently, finish_bind, finish_once, finish_holding]
    rfl
  | openConfig name c hasRuntime watchable =>
    rw [ofAction, finish_silently, finish_openConfig]
    rfl
  | clone settings copy =>
    rw [ofAction, finish_silently, finish_rebind]
    rfl
  | install settings =>
    rw [ofAction, finish_silently, finish_rebind]
    rfl
  | getSafe settings path =>
    simp only [ofAction, finish_silently, fst_finish_reaching, finish_getSafe]
    rfl
  | onUpdate settings name callback now =>
    simp only [ofAction, finish_silently, fst_finish_reaching, finish_bind,
      finish_onUpdate, finish_holdRegistered]
    rfl
  | invoke registry =>
    simp only [ofAction, finish_silently, fst_finish_found,
      finish_invokeAll follows_call]
    rfl
  | startWatch settings name notifier hasRuntime =>
    simp only [ofAction, finish_silently, fst_finish_reaching, finish_bind]
    refine congrArg (·, none) (congrArg _ (funext fun i => ?_))
    exact finish_holdNotifier name (p.startWatch i notifier hasRuntime)
  | stopWatch settings =>
    simp only [ofAction, finish_silently, fst_finish_reaching, finish_stopAndLog]
    rfl
  | writeFile path content =>
    rw [ofAction, finish_silently, finish_changeFile]
    rfl
  | replaceFile path staging content =>
    simp only [ofAction, finish_silently, finish_bind, finish_changeFile]
    rfl
  | takeEvent w =>
    rw [ofAction, finish_silently, finish_handleEvent]
    rfl
  | endTask w =>
    rw [ofAction, finish_silently, finish_endTaskIfOver]
    rfl
  | dispatch w =>
    rw [ofAction, finish_silently, finish_dispatch]
    rfl
  | _ =>
    simp only [ofAction, finish_silently, fst_finish_found, fst_finish_reaching]
    rfl

end Process
end LayeredSettings
