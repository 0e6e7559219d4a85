import LayeredSettings.Program.Rounds

/-!
Watching the file of a resolver.

A watch has two tasks. The reload task takes change events one by one, reloads, and queues what it
published; the dispatcher takes publications one by one and runs a round of callbacks for each. Each
task goes on at any time after what it waits for has come; `settle` lets both run until nothing is
left to do.
-/

namespace LayeredSettings

inductive WatchStatus
  | idle
  | watching
  | stopped
  deriving DecidableEq

def WatchStatus.name : WatchStatus → String
  | .idle => "idle"
  | .watching => "watching"
  | .stopped => "stopped"

namespace Program

def isRunning (p : Program) (w : WatchId) : Bool := p.watches[w]?.any (·.running)

/-- A watch whose task ended by itself counts as stopped. -/
def watchStatus (p : Program) (i : ResolverId) : WatchStatus :=
  match (p.resolvers[i]?.map Resolver.watch).getD .idle with
  | .idle => .idle
  | .watching w => if p.isRunning w then .watching else .stopped
  | .stopped => .stopped

/-- The names of a file in the directory of a path, if there is one. -/
def watchedNames (p : Program) (path : String) : Option (List String) := do
  let names ← (p.files.locate (FilePath.directory path)).toOption
  let name ← FilePath.fileName? path
  return names ++ [name]

/-- Sets up the delivery of events. Returns the names of the watched file. -/
def subscribe (p : Program) : Notifier → Except Fault (Program × Option (List String))
  | .controlled => .ok (p, none)
  | .failing fault => .error fault
  | .file path watchable =>
    if watchable then
      .ok (p.log (.watcherStarted path (FilePath.directory path)), p.watchedNames path)
    else .error .watcher

/-- Starts a watch unless one is running. Watching takes a file to reload and a runtime for the
tasks. -/
def startWatch (p : Program) (i : ResolverId) (notifier : Source → Notifier) (hasRuntime : Bool) :
    Program × Except Fault WatchId :=
  match p.resolvers[i]?.bind (·.source) with
  | none => (p, .error .noSource)
  | some source =>
    if !hasRuntime then (p, .error .noRuntime)
    else if p.watchStatus i = .watching then (p, .error .alreadyWatching)
    else
      match p.subscribe (notifier source) with
      | .error fault => (p, .error fault)
      | .ok (p, hears) =>
        let w := p.watches.length
        let watch : Watch := { resolver := i, hears }
        let p := { p with watches := p.watches ++ [watch] }
        ((p.modifyResolver i fun r => { r with watch := .watching w }).log
          (.watchStarted i source.path), .ok w)

/-- Queues an event; tells whether it was accepted. -/
def send (p : Program) (w : WatchId) (e : WatchEvent) : Program × Bool :=
  if p.watches[w]?.any Watch.accepts then (p.modifyWatch w (·.push e), true) else (p, false)

def close (p : Program) (w : WatchId) : Program := p.modifyWatch w Watch.release

/-- The reload task ends, if it has not done so before. -/
def endTask (p : Program) (w : WatchId) : Program :=
  match p.watches[w]? with
  | some watch =>
    if watch.running then (p.modifyWatch w Watch.endTask).log (.taskEnded watch.resolver) else p
  | none => p

/-- The reload task takes the next event. -/
def handleEvent (p : Program) (w : WatchId) : Program :=
  match p.watches[w]? with
  | none => p
  | some watch =>
    match watch.events with
    | [] => p
    | event :: later =>
      let p := p.modifyWatch w fun watch => { watch with events := later }
      match event with
      | .fault message => p.log (.watchFault message)
      | .changed =>
        match p.inUse watch.resolver, p.resolvers[watch.resolver]? with
        | true, some r =>
          match p.reloadDocument watch.resolver with
          | (p, .ok published) =>
            p.modifyWatch w fun watch => { watch with published := watch.published ++ [published] }
          | (p, .error fault) => p.log (.reloadFailed watch.resolver fault r.version)
        | _, _ => p.endTask w

/-- The dispatcher takes the next publication. -/
def dispatch (p : Program) (w : WatchId) : Program :=
  match p.watches[w]? with
  | none => p
  | some watch =>
    match watch.published with
    | [] => p
    | next :: later =>
      if p.inUse watch.resolver then
        (p.modifyWatch w fun watch => { watch with published := later }).announce watch.resolver
          next
      else p.modifyWatch w fun watch => { watch with published := [] }

/-- Whether the reload task has reason to end. -/
def taskIsOver (p : Program) (w : WatchId) : Bool :=
  p.watches[w]?.any fun watch => watch.isOver || !p.inUse watch.resolver

def endTaskIfOver (p : Program) (w : WatchId) : Program :=
  if p.taskIsOver w then p.endTask w else p

/-- A task that has much to do lets others go on after this many steps. -/
def turn : Nat := 128

/-- The reload task goes on until it waits for events, has ended, or its turn is over. -/
def runTask (p : Program) (w : WatchId) : Program :=
  let p := p.endTaskIfOver w
  let waiting := (p.watches[w]?.map (·.events.length)).getD 0
  (Nat.repeat (handleEvent · w) (min turn waiting) p).endTaskIfOver w

/-- The dispatcher goes on until it waits for publications or its turn is over. -/
def runDispatcher (p : Program) (w : WatchId) : Program :=
  let waiting := (p.watches[w]?.map (·.published.length)).getD 0
  Nat.repeat (dispatch · w) (min turn waiting) p

/-- Every task gets a turn. -/
def runTasks (p : Program) : Program :=
  let watches := List.range p.watches.length
  watches.foldl runDispatcher (watches.foldl runTask p)

/-- How much the tasks have to do. -/
def pending (p : Program) : Nat :=
  p.watches.foldr (fun watch n => watch.events.length + watch.published.length + n) 0

/-- All tasks run until nothing is left to do. A round of callbacks queues neither events nor
publications, so there are not more turns than there is to do. -/
def settle (p : Program) : Program := Nat.repeat runTasks (p.pending + 1) p

/-- Gives up the watch that was started last; its task will end. -/
def requestStop (p : Program) (i : ResolverId) : Program × Option WatchId :=
  match p.resolvers[i]?.map Resolver.watch with
  | some (.watching w) =>
    ((p.modifyResolver i fun r => { r with watch := .stopped }).modifyWatch w Watch.requestStop,
      some w)
  | _ => (p, none)

/-- Stops watching: the reload task ends. Tells whether there was a watch to give up. -/
def stopWatch (p : Program) (i : ResolverId) : Program × Bool :=
  match p.requestStop i with
  | (p, some w) => (p.endTask w, true)
  | (p, none) => (p, false)

/-- Events for the watches of the file under some names. -/
def notify (p : Program) (names : Option (List String)) : Program :=
  (List.range p.watches.length).foldl
    (fun p w =>
      if p.watches[w]?.any fun watch => watch.hears.isSome && watch.hears = names then
        (p.send w .changed).1
      else p) p

def writeFile (p : Program) (path : String) (content : Option String) : Program :=
  { p with files := p.files.write path content }.notify (p.files.place? path)

/-- Writes another file first and moves it to the path. -/
def replaceFile (p : Program) (path staging : String) (content : Option String) : Program :=
  let p := p.writeFile staging content
  { p with files := p.files.moveFile staging path }.notify (p.files.place? path)

def removeDirectory (p : Program) (path : String) : Program :=
  match p.files.directory? path with
  | some names =>
    { p with
      files := p.files.removeDirectory path
      watches := p.watches.map (·.forget names) }
  | none => p

end Program
end LayeredSettings
