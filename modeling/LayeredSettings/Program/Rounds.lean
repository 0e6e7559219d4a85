import LayeredSettings.Program.Basic

/-!
Reloads and the rounds of callbacks that follow them.

A round runs the callbacks that are live when it starts, each once and in the order of their
handles, whatever happens meanwhile. A callback may cause calls of callbacks inside its own run;
such calls nest up to a limit, and whatever would go beyond it counts as a panic of the callback.
-/

namespace LayeredSettings.Program

/-- Calls of callbacks nest at most this deep. -/
def nestingLimit : Nat := 4000

def publish (p : Program) (i : ResolverId) (d : Document) : Program :=
  match p.resolvers[i]? with
  | some r =>
    (p.modifyResolver i (·.publish d)).log (.published i r.version d.version d.size)
  | none => p

/-- Loads the document of a resolver again and publishes it. If that fails nothing changes. -/
def reloadDocument (p : Program) (i : ResolverId) : Program × Except Fault Publication :=
  match p.resolvers[i]? with
  | none => (p, .error .noSource)
  | some r =>
    match r.source with
    | none => (p, .error .noSource)
    | some source =>
      match source.load p.files with
      | .error fault => (p, .error fault)
      | .ok d => (p.publish i d, .ok ⟨r.latest.number + 1, d⟩)

/-- How a callback that was called is run. -/
abbrev Runner := Program → CallbackId → Program × Outcome

section
variable (run : Runner)

/-- Calls one callback of a round and counts it if it completes. -/
def invokeNext (round : Nat) (state : Program × Nat) (slot : Nat × CallbackId) : Program × Nat :=
  match run (state.1.enter slot.2 (.called round slot.1 slot.2)) slot.2 with
  | (p, .completed) => (p.mark (.completed round slot.1), state.2 + 1)
  | (p, .panicked message) => (p.log (.panicked slot.1 message), state.2)

/-- Runs a round of callbacks. Returns how many completed. -/
def invokeAllWith (p : Program) (owner : Owner) : Program × Nat :=
  let round := p.journal.length
  let (q, completed) :=
    (p.registry owner).live.foldl (invokeNext run round) (p.mark (.began owner), 0)
  (q.mark (.ended round completed), completed)

/-- The round that a publication causes. -/
def announceWith (p : Program) (i : ResolverId) (published : Publication) : Program :=
  let (p, completed) := p.invokeAllWith run (.resolver i)
  p.log (.invoked i published.number published.document.version completed)

/-- Reloads and runs the callbacks. Returns the new version. -/
def reloadWith (p : Program) (i : ResolverId) : Program × Except Fault Int64 :=
  match p.reloadDocument i with
  | (p, .error fault) => (p, .error fault)
  | (p, .ok published) => (p.announceWith run i published, .ok published.document.version)

/-- Registers a callback and calls it. It stays registered if it panics. -/
def registerAndCall (p : Program) (owner : Owner) (callback : Callback) :
    Program × Outcome × Nat :=
  let id := p.callbacks.length
  let (p, handle) := p.register owner callback
  let (p, outcome) := run (p.enter id (.calledAtOnce id)) id
  (p, outcome, handle)

end

/-- Cancels a handle in whatever a name refers to. -/
def cancelNamed (p : Program) (owner : String) (handle : Nat) : Program :=
  (p.ownersNamed owner).foldl (·.cancel · handle) p

/-- Carries out a script. `inner` is how callbacks are run that are called meanwhile, if calls may
nest any further. -/
def perform (inner : Option Runner) : Script → Program → Program × Outcome
  | .done, p => (p, .completed)
  | .panic message, p => (p, .panicked message)
  | .record text next, p => perform inner next (p.record text)
  | .version settings next, p =>
    let version? := (p.names.settings.get? settings).bind fun i =>
      p.resolvers[i]?.map Resolver.version
    perform inner (next version?) p
  | .handle name next, p => perform inner (next (p.names.handles.get? name)) p
  | .cancel owner handle next, p => perform inner next (p.cancelNamed owner handle)
  | .register owner callback now next, p =>
    -- Of what a name refers to, settings come before a registry.
    match (p.ownersNamed owner).head? with
    | none => perform inner (next none) p
    | some first =>
      if now then
        match inner with
        | none => (p, .panicked none)
        | some run =>
          match p.registerAndCall run first callback with
          | (p, .completed, handle) => perform inner (next (some handle)) p
          | (p, .panicked message, _) => (p, .panicked message)
      else
        let (p, handle) := p.register first callback
        perform inner (next (some handle)) p
  | .invoke registry next, p =>
    match p.names.registries.get? registry with
    | none => perform inner (next none) p
    | some i =>
      match inner with
      | none => (p, .panicked none)
      | some run =>
        let (p, completed) := p.invokeAllWith run (.registry i)
        perform inner (next (some completed)) p
  | .reload settings next, p =>
    match p.names.settings.get? settings with
    | none => perform inner (next none) p
    | some i =>
      match inner with
      | none => (p, .panicked none)
      | some run =>
        let (p, answer) := p.reloadWith run i
        perform inner (next (some answer)) p
  | .rebind change next, p => perform inner next (p.rebind change)

/-- Runs a callback inside of which calls may nest to a depth. -/
def runWithin : (depth : Nat) → Runner
  | 0, p, c => runOnce none p c
  | depth + 1, p, c => runOnce (some (runWithin depth)) p c
where
  runOnce (inner : Option Runner) (p : Program) (c : CallbackId) : Program × Outcome :=
    match p.callbacks[c]? with
    | none => (p, .completed)
    | some called => perform inner (called.callback called.runs) p

def run : Runner := runWithin nestingLimit

def invokeAll (p : Program) (owner : Owner) : Program × Nat := p.invokeAllWith run owner

def announce (p : Program) (i : ResolverId) (published : Publication) : Program :=
  p.announceWith run i published

def reload (p : Program) (i : ResolverId) : Program × Except Fault Int64 := p.reloadWith run i

/-- Registers a callback for updates, which may be called at once. -/
def onUpdate (p : Program) (i : ResolverId) (callback : Callback) (now : Bool) :
    Program × Outcome × Nat :=
  if now then p.registerAndCall run (.resolver i) callback
  else
    let (p, handle) := p.register (.resolver i) callback
    (p, .completed, handle)

end LayeredSettings.Program
