import LayeredSettings.Proofs.Except
import LayeredSettings.Proofs.Program.LaterWatches

/-!
Steps of programs that differ in their later watches.

Whether a watch can be started, and what there is to stop, may depend on the later watches. What
comes of it makes no other difference than that.
-/

namespace LayeredSettings

/-- The step takes no event of a watch from a number on. -/
def Action.LeavesEvents (n : WatchId) (a : Action) : Prop := ∀ w, a = .takeEvent w → w < n

namespace Program

variable {n : WatchId} {p q : Program}

/-! ## Files -/

/-- A watch is told of a change, if it hears of it. -/
def tell (names : Option (List String)) (p : Program) (w : WatchId) : Program :=
  if p.watches[w]?.any fun watch => watch.hears.isSome && watch.hears = names then
    (p.send w .changed).1
  else p

theorem QuietFrom.later_tell (h : p.QuietFrom n) {w : WatchId} (later : n ≤ w)
    (names : Option (List String)) : SameUpTo n p (p.tell names w) := by
  unfold tell
  split
  · exact h.later_send later .changed
  · exact h.refl

theorem QuietFrom.later_foldl_tell (h : p.QuietFrom n) {watches : List WatchId}
    (later : ∀ w ∈ watches, n ≤ w) (names : Option (List String)) :
    SameUpTo n p (watches.foldl (tell names) p) := by
  induction watches generalizing p with
  | nil => exact h.refl
  | cons w watches ih =>
    obtain ⟨first, rest⟩ := List.forall_mem_cons.1 later
    have told := h.later_tell first names
    exact told.trans (ih told.right rest)

namespace SameUpTo

theorem tell (h : SameUpTo n p q) (names : Option (List String)) (w : WatchId) :
    SameUpTo n (p.tell names w) (q.tell names w) := by
  rcases Nat.lt_or_ge w n with first | later
  · unfold Program.tell
    rw [h.watch first]
    split
    · exact h.send w .changed
    · exact h
  · exact h.onward (h.left.later_tell later names) (h.right.later_tell later names)

theorem foldl_tell (h : SameUpTo n p q) (names : Option (List String)) (watches : List WatchId) :
    SameUpTo n (watches.foldl (Program.tell names) p) (watches.foldl (Program.tell names) q) := by
  induction watches generalizing p q with
  | nil => exact h
  | cons w watches ih => exact ih (h.tell names w)

/-- The first watches are told alike, and of the others nobody else notices what they are told. -/
theorem notify (h : SameUpTo n p q) (names : Option (List String)) :
    SameUpTo n (p.notify names) (q.notify names) := by
  have told (p : Program) (quiet : p.QuietFrom n) :
      SameUpTo n ((List.range n).foldl (Program.tell names) p) (p.notify names) := by
    -- Watches are told in order, so all of the first ones are told before any other.
    obtain ⟨more, length⟩ := Nat.exists_eq_add_of_le quiet.known
    show SameUpTo n _ ((List.range p.watches.length).foldl (Program.tell names) p)
    rw [length, List.range_add, List.foldl_append]
    refine QuietFrom.later_foldl_tell (quiet.refl.foldl_tell names _).right ?_ names
    simp
  exact (h.foldl_tell names _).onward (told p h.left) (told q h.right)

theorem changeFiles (h : SameUpTo n p q) (change : FileStore → FileStore) :
    SameUpTo n { p with files := change p.files } { q with files := change q.files } :=
  h.map (fun p => { p with files := change p.files }) (fun _ => rfl) fun _ => rfl

theorem writeFile (h : SameUpTo n p q) (path : String) (content : Option String) :
    SameUpTo n (p.writeFile path content) (q.writeFile path content) := by
  unfold Program.writeFile
  rw [h.files]
  have written := (h.changeFiles (·.write path content)).notify (p.files.place? path)
  rwa [h.files] at written

theorem replaceFile (h : SameUpTo n p q) (path staging : String) (content : Option String) :
    SameUpTo n (p.replaceFile path staging content) (q.replaceFile path staging content) := by
  have written := h.writeFile staging content
  have moved := (written.changeFiles (·.moveFile staging path)).notify
    ((p.writeFile staging content).files.place? path)
  unfold Program.replaceFile
  dsimp only
  rwa [written.files] at moved ⊢

theorem removeDirectory (h : SameUpTo n p q) (path : String) :
    SameUpTo n (p.removeDirectory path) (q.removeDirectory path) := by
  unfold Program.removeDirectory
  rw [h.files]
  split
  · rename_i names _
    have removed := h.changeFiles (·.removeDirectory path)
    rw [h.files] at removed
    exact removed.mapWatches (f := (·.forget names)) fun _ => rfl
  · exact h

/-! ## Opening -/

theorem holdSettings (h : SameUpTo n p q) (name : String) (i : ResolverId) :
    SameUpTo n (p.holdSettings name i) (q.holdSettings name i) :=
  h.map (·.holdSettings name i) (fun _ => rfl) fun _ => rfl

theorem holdOpened {x y : Program × Except Fault ResolverId} (h : Same (SameUpTo n) x y)
    (name : String) : SameUpTo n (Program.holdOpened name x) (Program.holdOpened name y) := by
  obtain ⟨p, answer⟩ := x
  obtain ⟨q, answer'⟩ := y
  obtain ⟨h, rfl⟩ := h
  cases answer' with
  | error fault => exact h
  | ok i => exact h.holdSettings name i

theorem openFile (h : SameUpTo n p q) (path : String) (format : Option Format) (facts : Facts) :
    Same (SameUpTo n) (p.openFile path format facts) (q.openFile path format facts) := by
  unfold Program.openFile
  rw [h.files]
  dsimp only
  cases Source.load _ p.files with
  | error fault => exact ⟨h, rfl⟩
  | ok d => exact ⟨(h.note _ _).addResolver rfl, congrArg Except.ok h.length_resolvers⟩

end SameUpTo

/-! ## Starts -/

/-- Whether a watch can be started depends on the file of the resolver, its status, and the other
files. -/
theorem startWatch_congr {α : Type} {i : ResolverId} (source : q.source? i = p.source? i)
    (files : q.files = p.files) (status : q.watchStatus i = p.watchStatus i)
    (notifier : Source → Notifier) (hasRuntime : Bool) (a : α) :
    (q.startWatch i notifier hasRuntime).2.map (fun _ => a) =
      (p.startWatch i notifier hasRuntime).2.map fun _ => a := by
  rw [source?, source?] at source
  unfold startWatch
  rw [source, status]
  cases p.resolvers[i]?.bind (·.source) with
  | none => rfl
  | some source =>
    have subscribed := subscribe_congr files (notifier source)
    dsimp only
    split
    · rfl
    · split
      · rfl
      · cases answer : p.subscribe (notifier source) with
        | error fault =>
          rw [answer] at subscribed
          rw [Except.map_eq_error_iff.1 subscribed]
        | ok result =>
          rw [answer] at subscribed
          obtain ⟨result', answer', -⟩ := Except.map_eq_ok_iff.1 subscribed
          rw [answer']
          rfl

/-- A resolver that has none of the first watches looks idle. -/
theorem upTo_watch_eq_idle {i : ResolverId} {r : Resolver}
    (other : ∀ w < n, p.roster.states[i]? ≠ some (.watching w)) (held : p.resolvers[i]? = some r) :
    r.watch.upTo n = .idle := by
  refine WatchState.upTo_eq_idle fun w first watching => other w first ?_
  rw [roster, List.getElem?_map, held, Option.map_some, watching]

namespace QuietFrom

variable (h : p.QuietFrom n)
include h

theorem launch (i : ResolverId) (hears : Option (List String)) :
    (p.launch i hears).QuietFrom n ∧ (p.launch i hears).upTo n =
      (p.upTo n).modifyResolver i fun r => { r with watch := .idle } := by
  have new : (WatchState.watching p.watches.length).upTo n = .idle := if_neg (Nat.not_lt.2 h.known)
  constructor
  · constructor
    case known =>
      rw [Program.launch, Program.modifyResolver, List.length_append]
      exact Nat.le_add_right_of_le h.known
    case quiet =>
      intro w watch later found
      rw [Program.launch, Program.modifyResolver, List.getElem?_append] at found
      split at found
      · exact h.quiet later found
      · rw [List.getElem?_singleton] at found
        split at found
        · cases found
          rfl
        · cases found
  · simp only [Program.launch, Program.modifyResolver, upTo,
      List.take_append_of_le_length h.known]
    congr 1
    apply map_modify
    intro r
    rw [Resolver.upTo, new]
    rfl

/-- What a start comes to, as far as the first watches are concerned. -/
theorem startWatch (i : ResolverId) (notifier : Source → Notifier) (hasRuntime : Bool) :
    (p.startWatch i notifier hasRuntime).1.QuietFrom n ∧
      (p.startWatch i notifier hasRuntime).1.upTo n =
        if (p.startWatch i notifier hasRuntime).2.isOk then
          (p.upTo n).modifyResolver i fun r => { r with watch := .idle }
        else p.upTo n := by
  rcases p.startWatch_eq i notifier hasRuntime with
    ⟨fault, refused⟩ | ⟨source, r, hears, -, -, subscribed, begun⟩
  · rw [refused]
    exact ⟨h, rfl⟩
  · rw [begun]
    have quiet : r.QuietFrom n ∧ r.upTo n = p.upTo n := by
      rcases subscribe_eq_ok subscribed with rfl | ⟨path, directory, rfl⟩
      · exact ⟨h, rfl⟩
      · exact ⟨h.of_watches rfl, rfl⟩
    obtain ⟨launched, same⟩ := quiet.1.launch i hears
    exact ⟨launched.of_watches rfl, same.trans (by rw [quiet.2]; rfl)⟩

/-- Nobody notices the start of a resolver that looks idle anyway. -/
theorem later_startWatch {i : ResolverId}
    (other : ∀ w < n, p.roster.states[i]? ≠ some (.watching w)) (notifier : Source → Notifier)
    (hasRuntime : Bool) : SameUpTo n p (p.startWatch i notifier hasRuntime).1 := by
  obtain ⟨quiet, same⟩ := h.startWatch i notifier hasRuntime
  refine ⟨?_, h, quiet⟩
  have idle : (p.upTo n).resolvers.modify i (fun r => { r with watch := .idle }) =
      (p.upTo n).resolvers := by
    refine modify_eq_self_of fun r found => ?_
    rw [upTo, List.getElem?_map] at found
    obtain ⟨before, held, rfl⟩ := Option.map_eq_some_iff.1 found
    rw [Resolver.upTo, upTo_watch_eq_idle other held]
  rw [same, Program.modifyResolver, idle, ite_self]

omit h in
theorem later_holdNotifier {x : Program × Except Fault WatchId} (quiet : x.1.QuietFrom n)
    (name : String) : SameUpTo n x.1 (Program.holdNotifier name x) := by
  obtain ⟨p, answer⟩ := x
  cases answer with
  | error fault => exact quiet.refl
  | ok w => exact ⟨rfl, quiet, quiet.of_watches rfl⟩

end QuietFrom

namespace SameUpTo

variable (h : SameUpTo n p q)
include h

/-- The programs have the same first watches, for the same resolvers. -/
theorem states {i : ResolverId} {w : WatchId} (first : w < n) :
    q.roster.states[i]? = some (.watching w) ↔ p.roster.states[i]? = some (.watching w) := by
  simp only [roster, List.getElem?_map]
  rcases h.resolver i with ⟨none, none'⟩ | ⟨r, state, held, held', alike⟩
  · rw [none, none']
  · rw [held, held', Option.map_some, Option.map_some, Option.some_inj, Option.some_inj,
      ← WatchState.upTo_eq_watching_iff first, alike, WatchState.upTo_eq_watching_iff first]

/-- A resolver has the same one of the first watches in both programs, or none of them. -/
theorem current (i : ResolverId) :
    (∃ w < n, p.roster.states[i]? = some (.watching w) ∧
      q.roster.states[i]? = some (.watching w)) ∨
    (∀ w < n, p.roster.states[i]? ≠ some (.watching w)) ∧
      ∀ w < n, q.roster.states[i]? ≠ some (.watching w) := by
  by_cases old : ∃ w < n, p.roster.states[i]? = some (.watching w)
  · obtain ⟨w, first, held⟩ := old
    exact .inl ⟨w, first, held, (h.states first).2 held⟩
  · have other (w : WatchId) (first : w < n) : p.roster.states[i]? ≠ some (.watching w) :=
      fun held => old ⟨w, first, held⟩
    exact .inr ⟨other, fun w first held => other w first ((h.states first).1 held)⟩

theorem watchStatus {i : ResolverId} {w : WatchId} (first : w < n)
    (held : p.roster.states[i]? = some (.watching w)) : q.watchStatus i = p.watchStatus i := by
  have held' := (h.states first).2 held
  rw [roster, List.getElem?_map] at held held'
  simp only [Program.watchStatus, held, held', Option.getD_some]
  rw [isRunning, isRunning, h.watch first]

/-- A resolver with one of the first watches can be started in both programs or in neither. -/
theorem startWatch (i : ResolverId) (notifier : Source → Notifier) (hasRuntime : Bool) :
    SameUpTo n (p.startWatch i notifier hasRuntime).1 (q.startWatch i notifier hasRuntime).1 := by
  rcases h.current i with ⟨w, first, held, -⟩ | ⟨other, other'⟩
  · obtain ⟨left, same⟩ := h.left.startWatch i notifier hasRuntime
    obtain ⟨right, same'⟩ := h.right.startWatch i notifier hasRuntime
    have answered := congrArg Except.isOk <|
      startWatch_congr (h.source i) h.files (h.watchStatus first held) notifier hasRuntime ()
    rw [Except.isOk_map, Except.isOk_map] at answered
    refine ⟨?_, left, right⟩
    rw [same, same', h.same, answered]
  · exact h.onward (h.left.later_startWatch other notifier hasRuntime)
      (h.right.later_startWatch other' notifier hasRuntime)

omit h in
theorem holdNotifier {x y : Program × Except Fault WatchId} (h : SameUpTo n x.1 y.1)
    (name : String) : SameUpTo n (Program.holdNotifier name x) (Program.holdNotifier name y) :=
  SameUpTo.onward h (QuietFrom.later_holdNotifier h.left name)
    (QuietFrom.later_holdNotifier h.right name)

end SameUpTo

/-- What is opened from a file is a new resolver of the file, which nobody watches yet. -/
theorem resolver_openFile {path : String} {format : Option Format} {facts : Facts} {i : ResolverId}
    (opened : p.openFile path format facts = (q, .ok i)) :
    i = p.resolvers.length ∧
    q.source? i = some ⟨path, format.getD (Format.ofPath path)⟩ ∧ q.watchStatus i = .idle := by
  rcases p.openFile_eq path format facts with ⟨fault, -, refused⟩ | ⟨d, -, made⟩
  · cases opened.symm.trans refused
  · cases opened.symm.trans made
    simp [source?, Program.watchStatus, addResolver, log, Program.note, Resolver.create]

namespace SameUpTo

variable (h : SameUpTo n p q)
include h

theorem openConfig (c : Config) (hasRuntime : Bool) (watchable : String → Bool) :
    Same (SameUpTo n) (p.openConfig c hasRuntime watchable)
      (q.openConfig c hasRuntime watchable) := by
  cases given : c.facts with
  | error fault =>
    rw [Program.openConfig, Program.openConfig, given]
    exact ⟨h, rfl⟩
  | ok facts =>
    have loaded := h.openFile c.path c.format facts
    cases opened : p.openFile c.path c.format facts with
    | mk p' answer =>
      cases opened' : q.openFile c.path c.format facts with
      | mk q' answer' =>
        rw [opened, opened'] at loaded
        obtain ⟨loaded, rfl⟩ := loaded
        cases answer' with
        | error fault =>
          rw [openConfig_of_error given opened, openConfig_of_error given opened']
          exact ⟨loaded, rfl⟩
        | ok i =>
          rw [openConfig_of_ok given opened, openConfig_of_ok given opened']
          obtain ⟨-, -, idle⟩ := resolver_openFile opened
          obtain ⟨-, -, idle'⟩ := resolver_openFile opened'
          have answered := startWatch_congr (loaded.source i) loaded.files (idle'.trans idle.symm)
            (.ofSystem watchable) hasRuntime i
          split
          · exact ⟨loaded.startWatch i _ hasRuntime, answered⟩
          · exact ⟨loaded, rfl⟩

end SameUpTo

/-! ## Stops -/

theorem requestStop_of_watching {i : ResolverId} {w : WatchId}
    (held : p.roster.states[i]? = some (.watching w)) :
    p.requestStop i = ((p.modifyResolver i fun r => { r with watch := .stopped }).modifyWatch w
      Watch.requestStop, some w) := by
  rw [roster, List.getElem?_map] at held
  simp [requestStop, held]

theorem requestStop_of_not_watching {i : ResolverId}
    (free : ∀ w, p.roster.states[i]? ≠ some (.watching w)) : p.requestStop i = (p, none) := by
  unfold requestStop
  split
  · rename_i w held
    rw [roster, List.getElem?_map] at free
    exact absurd held (free w)
  · rfl

/-- Nobody notices that a later watch is given up. -/
theorem QuietFrom.later_stop (h : p.QuietFrom n) {i : ResolverId}
    (other : ∀ w < n, p.roster.states[i]? ≠ some (.watching w)) :
    SameUpTo n p (p.requestStop i).1 ∧ SameUpTo n p (p.stopAndLog i) := by
  by_cases watched : ∃ w, p.roster.states[i]? = some (.watching w)
  · obtain ⟨w, held⟩ := watched
    have later : n ≤ w := Nat.not_lt.1 fun first => other w first held
    have given : SameUpTo n p (p.requestStop i).1 := by
      rw [requestStop_of_watching held]
      have left : SameUpTo n p (p.modifyResolver i fun r => { r with watch := .stopped }) := by
        refine h.later_modifyResolver fun r found => ?_
        rw [Resolver.upTo, Resolver.upTo, upTo_watch_eq_idle other found]
        rfl
      exact left.trans (left.right.later_modifyWatch later fun _ _ quiet => quiet)
    refine ⟨given, ?_⟩
    rw [stopAndLog_of_watching held]
    have ended := given.trans (given.right.later_endTask later)
    exact ended.trans (ended.right.note _)
  · rw [requestStop_of_not_watching (not_exists.1 watched),
      stopAndLog_of_not_watching (not_exists.1 watched)]
    exact ⟨h.refl, h.refl⟩

namespace SameUpTo

variable (h : SameUpTo n p q)
include h

theorem stop (i : ResolverId) :
    SameUpTo n (p.requestStop i).1 (q.requestStop i).1 ∧
      SameUpTo n (p.stopAndLog i) (q.stopAndLog i) := by
  rcases h.current i with ⟨w, -, held, held'⟩ | ⟨other, other'⟩
  · have given : SameUpTo n (p.requestStop i).1 (q.requestStop i).1 := by
      rw [requestStop_of_watching held, requestStop_of_watching held']
      have left := h.modifyResolver (f := fun r => { r with watch := .stopped }) i
        (fun r => { r with watch := .idle }) fun _ => rfl
      exact left.modifyWatch w fun _ _ quiet => quiet
    refine ⟨given, ?_⟩
    rw [stopAndLog_of_watching held, stopAndLog_of_watching held']
    exact (given.endTask w).note _ _
  · obtain ⟨asked, ended⟩ := h.left.later_stop other
    obtain ⟨asked', ended'⟩ := h.right.later_stop other'
    exact ⟨h.onward asked asked', h.onward ended ended'⟩

/-! ## Calls through handles -/

theorem elim {α : Type} {f g : α → Program} (each : ∀ a, SameUpTo n (f a) (g a))
    (found : Option α) : SameUpTo n (found.elim p f) (found.elim q g) := by
  cases found with
  | none => exact h
  | some a => exact each a

theorem receiver (i : ResolverId) : q.receiver i = p.receiver i := by
  rw [Program.receiver, Program.receiver]
  rcases h.resolver i with ⟨none, none'⟩ | ⟨r, state, held, held', -⟩
  · rw [none, none']
  · rw [held, held']
    rfl

theorem rename {f : Names → Names} (blind : ∀ names : Names,
    { f names with notifiers := [] } = f { names with notifiers := [] }) :
    SameUpTo n (p.rename f) (q.rename f) :=
  h.map (·.rename f) (fun p => by simp only [Program.rename, upTo, blind]) fun _ => rfl

theorem holdHandle (name : String) (handle : Nat) :
    SameUpTo n (p.holdHandle name handle) (q.holdHandle name handle) :=
  h.rename fun _ => rfl

theorem holdReceiver (name : String) (r : Receiver) :
    SameUpTo n (p.holdReceiver name r) (q.holdReceiver name r) :=
  h.rename fun _ => rfl

theorem openDocument (d : Document) (facts : Facts) :
    Same (SameUpTo n) (p.openDocument d facts) (q.openDocument d facts) :=
  ⟨h.addResolver rfl, h.length_resolvers⟩

theorem getSafe (i : ResolverId) (path : List String) :
    Same (SameUpTo n) (p.getSafe i path) (q.getSafe i path) := by
  unfold Program.getSafe
  rcases h.resolver i with ⟨none, none'⟩ | ⟨r, state, held, held', -⟩
  · rw [none, none']
    exact ⟨h, rfl⟩
  · rw [held, held']
    have found : ({ r with watch := state } : Resolver).resolve? path = r.resolve? path := rfl
    dsimp only
    rw [found]
    cases r.resolve? path with
    | none => exact ⟨h.note _ _, rfl⟩
    | some v => exact ⟨h, rfl⟩

omit h in
theorem holdRegistered {x y : Program × Outcome × Nat} (h : Same (SameUpTo n) x y)
    (name : String) :
    SameUpTo n (Program.holdRegistered name x) (Program.holdRegistered name y) := by
  obtain ⟨p, outcome, handle⟩ := x
  obtain ⟨q, outcome', handle'⟩ := y
  obtain ⟨h, same⟩ := h
  cases same
  cases outcome with
  | completed => exact SameUpTo.holdHandle h name handle
  | panicked message => exact h

theorem registerIn (i : Nat) (name : String) (callback : Callback) :
    SameUpTo n (p.registerIn i name callback) (q.registerIn i name callback) := by
  have handle : (q.register (.registry i) callback).2 = (p.register (.registry i) callback).2 :=
    congrArg Registry.size (h.registry _)
  unfold Program.registerIn
  dsimp only
  rw [handle]
  exact (h.register _ callback).holdHandle name _

theorem addRegistry (name : String) : SameUpTo n (p.addRegistry name) (q.addRegistry name) :=
  h.map (·.addRegistry name) (fun _ => rfl) fun _ => rfl

/-! ## Runs -/

theorem act {a : Action} (leaves : a.LeavesEvents n) : SameUpTo n (p.act a) (q.act a) := by
  cases a with
  | openFile name path format facts => exact SameUpTo.holdOpened (h.openFile path format facts) name
  | openDocument name d facts =>
    obtain ⟨opened, same⟩ := h.openDocument d facts
    simp only [Program.act, same]
    exact opened.holdSettings name _
  | openConfig name c hasRuntime watchable =>
    exact SameUpTo.holdOpened (h.openConfig c hasRuntime watchable) name
  | clone settings copy => exact h.rebind (.clone settings copy)
  | drop name => exact h.rebind (.drop name)
  | install settings => exact h.rebind (.install settings)
  | uninstall => exact h.rebind .uninstall
  | getSafe settings path =>
    rw [Program.act, Program.act, h.reached]
    exact h.elim (fun i => (h.getSafe i path).1) _
  | subscribe settings name =>
    simp only [Program.act, h.reached, h.receiver]
    exact h.elim (fun i => h.holdReceiver name _) _
  | receive name =>
    simp only [Program.act, h.receivers, h.receiver]
    exact h.elim (fun r => h.holdReceiver name _) _
  | onUpdate settings name callback now =>
    rw [Program.act, Program.act, h.reached]
    exact h.elim (fun i => SameUpTo.holdRegistered (matching.onUpdate h i callback now) name) _
  | cancelUpdate settings handle =>
    simp only [Program.act, h.reached, h.handles]
    exact h.elim (fun i => h.elim (fun index => h.cancel (.resolver i) index) _) _
  | reload settings =>
    rw [Program.act, Program.act, h.reached]
    exact h.elim (fun i => (matching.reloaded h i).1) _
  | newRegistry name => exact h.addRegistry name
  | registerIn registry name callback =>
    rw [Program.act, Program.act, h.namedRegistries]
    exact h.elim (fun i => h.registerIn i name callback) _
  | cancelIn registry handle =>
    simp only [Program.act, h.namedRegistries, h.handles]
    exact h.elim (fun i => h.elim (fun index => h.cancel (.registry i) index) _) _
  | invoke registry =>
    rw [Program.act, Program.act, h.namedRegistries]
    exact h.elim (fun i => (matching.invokeAll h _).1) _
  | startWatch settings name notifier hasRuntime =>
    rw [Program.act, Program.act, h.reached]
    exact h.elim (fun i => SameUpTo.holdNotifier (h.startWatch i notifier hasRuntime) name) _
  | stopWatch settings =>
    rw [Program.act, Program.act, h.reached]
    exact h.elim (fun i => (h.stop i).2) _
  | requestStop settings =>
    rw [Program.act, Program.act, h.reached]
    exact h.elim (fun i => (h.stop i).1) _
  | writeFile path content => exact h.writeFile path content
  | replaceFile path staging content => exact h.replaceFile path staging content
  | removeDirectory path => exact h.removeDirectory path
  | changeFiles change => exact h.changeFiles change
  | send w e => exact h.send w e
  | close w => exact h.modifyWatch w fun _ _ quiet => quiet
  -- A later watch would reload here, which the other program may not have.
  | takeEvent w => exact h.handleEvent (leaves w rfl)
  | endTask w => exact h.endTaskIfOver w
  | dispatch w => exact h.dispatch w

/-- Step by step, whatever the later watches are told, as none of it is taken. -/
theorem after {run : List Action} (leaves : ∀ a ∈ run, a.LeavesEvents n) :
    SameUpTo n (p.after run) (q.after run) := by
  induction run generalizing p q with
  | nil => exact h
  | cons a run ih =>
    obtain ⟨first, rest⟩ := List.forall_mem_cons.1 leaves
    rw [after_cons, after_cons]
    exact ih (h.act first) rest

end SameUpTo
end Program
end LayeredSettings
