import LayeredSettings.Proofs.Program.Action
import LayeredSettings.Proofs.Program.Callbacks
import LayeredSettings.Proofs.Value.Ordered

/-!
What the steps of a run are made of.

Every step is put together from a few changes of a program and from what callbacks do. So a relation
that these keep holds between the two ends of any run.
-/

namespace LayeredSettings

/-- The task that reloads for a watch. -/
structure Task where
  resolver : ResolverId
  running : Bool
  stopRequested : Bool

def Watch.task (w : Watch) : Task := ⟨w.resolver, w.running, w.stopRequested⟩

def Action.mayStart : Action → Bool
  | .openConfig .. => true
  | .startWatch .. => true
  | _ => false

def Action.mayStop : Action → Bool
  | .stopWatch _ => true
  | .requestStop _ => true
  | _ => false

/-- Whether an occurrence is the line that logs a round. -/
def Occurrence.logsRound : Occurrence → Bool
  | .logged (.invoked ..) => true
  | _ => false

/-- Whether a step begins to stop a watch and leaves the end of its task to another step. -/
def Action.beginsStop : Action → Bool
  | .requestStop _ => true
  | _ => false

namespace Program

/-- The file of a resolver, if it has one. -/
def source? (p : Program) (i : ResolverId) : Option Source := p.resolvers[i]?.bind (·.source)

/-- A watch that was not there before becomes the current one of a resolver. -/
def launch (p : Program) (i : ResolverId) (hears : Option (List String)) : Program :=
  let q : Program := { p with watches := p.watches ++ [{ resolver := i, hears }] }
  q.modifyResolver i fun r => { r with watch := .watching p.watches.length }

theorem map_modify {α β : Type} {g : α → β} {f : α → α} {f' : β → β} (h : ∀ a, g (f a) = f' (g a))
    (l : List α) (n : Nat) : (l.modify n f).map g = (l.map g).modify n f' := by
  apply List.ext_getElem?
  intro m
  simp only [List.getElem?_map, List.getElem?_modify]
  cases l[m]? with
  | none => rfl
  | some a => by_cases hnm : n = m <;> simp [hnm, h]

theorem map_modify_of_eq {α β : Type} {g : α → β} {f : α → α} (h : ∀ a, g (f a) = g a)
    (l : List α) (n : Nat) : (l.modify n f).map g = l.map g := by
  rw [← List.modify_id n (l.map g)]
  exact map_modify h l n

theorem modify_eq_self_of {α : Type} {l : List α} {n : Nat} {f : α → α}
    (h : ∀ a, l[n]? = some a → f a = a) : l.modify n f = l := by
  apply List.ext_getElem?
  intro m
  rw [List.getElem?_modify]
  by_cases hnm : n = m
  · subst hnm
    cases ha : l[n]? with
    | none => rfl
    | some a => simp [h a ha]
  · simp [hnm]

/-! ## Outcomes of calls -/

theorem subscribe_eq_ok {p q : Program} {notifier : Notifier} {hears : Option (List String)}
    (h : p.subscribe notifier = .ok (q, hears)) :
    q = p ∨ ∃ path directory, q = p.log (.watcherStarted path directory) := by
  cases notifier with
  | controlled =>
    obtain ⟨rfl, -⟩ := Prod.mk.inj (Except.ok.inj h)
    exact .inl rfl
  | failing fault => cases h
  | file path watchable =>
    simp only [Program.subscribe] at h
    split at h
    · obtain ⟨rfl, -⟩ := Prod.mk.inj (Except.ok.inj h)
      exact .inr ⟨_, _, rfl⟩
    · cases h

/-- What a start of a watch comes to, in the order in which it is checked. -/
inductive Start (p : Program) (i : ResolverId) (notifier : Source → Notifier) (hasRuntime : Bool) :
    Program × Except Fault WatchId → Prop
  | noSource : p.resolvers[i]?.bind (·.source) = none →
    Start p i notifier hasRuntime (p, .error .noSource)
  | noRuntime {source : Source} : p.resolvers[i]?.bind (·.source) = some source →
    hasRuntime = false → Start p i notifier hasRuntime (p, .error .noRuntime)
  | alreadyWatching {source : Source} : p.resolvers[i]?.bind (·.source) = some source →
    hasRuntime = true → p.watchStatus i = .watching →
    Start p i notifier hasRuntime (p, .error .alreadyWatching)
  | refused {source : Source} {fault : Fault} : p.resolvers[i]?.bind (·.source) = some source →
    hasRuntime = true → p.watchStatus i ≠ .watching → p.subscribe (notifier source) = .error fault →
    Start p i notifier hasRuntime (p, .error fault)
  | started {source : Source} {q : Program} {hears : Option (List String)} :
    p.resolvers[i]?.bind (·.source) = some source → hasRuntime = true →
    p.watchStatus i ≠ .watching → p.subscribe (notifier source) = .ok (q, hears) →
    Start p i notifier hasRuntime
      ((q.launch i hears).log (.watchStarted i source.path), .ok q.watches.length)

theorem start_startWatch (p : Program) (i : ResolverId) (notifier : Source → Notifier)
    (hasRuntime : Bool) : Start p i notifier hasRuntime (p.startWatch i notifier hasRuntime) := by
  unfold startWatch
  split
  · rename_i hsource
    exact .noSource hsource
  · rename_i source hsource
    cases hasRuntime with
    | false => exact .noRuntime hsource rfl
    | true =>
      rw [if_neg (by decide)]
      split
      · rename_i hstatus
        exact .alreadyWatching hsource rfl hstatus
      · rename_i hstatus
        split
        · rename_i fault hsubscribe
          exact .refused hsource rfl hstatus hsubscribe
        · rename_i q hears hsubscribe
          exact .started hsource rfl hstatus hsubscribe

/-- A start that fails leaves everything as it is. -/
theorem startWatch_eq (p : Program) (i : ResolverId) (notifier : Source → Notifier)
    (hasRuntime : Bool) :
    (∃ fault, p.startWatch i notifier hasRuntime = (p, .error fault)) ∨
    ∃ source q hears, p.source? i = some source ∧ p.watchStatus i ≠ .watching ∧
      p.subscribe (notifier source) = .ok (q, hears) ∧
      p.startWatch i notifier hasRuntime =
        ((q.launch i hears).log (.watchStarted i source.path), .ok q.watches.length) := by
  have hstart := p.start_startWatch i notifier hasRuntime
  generalize p.startWatch i notifier hasRuntime = result at hstart
  cases hstart with
  | noSource => exact .inl ⟨_, rfl⟩
  | noRuntime => exact .inl ⟨_, rfl⟩
  | alreadyWatching => exact .inl ⟨_, rfl⟩
  | refused => exact .inl ⟨_, rfl⟩
  | started hsource _ hstatus hsubscribe =>
    exact .inr ⟨_, _, _, hsource, hstatus, hsubscribe, rfl⟩

theorem requestStop_eq_none {p q : Program} {i : ResolverId} (h : p.requestStop i = (q, none)) :
    q = p := by
  unfold requestStop at h
  split at h
  · cases (Prod.mk.inj h).2
  · exact (Prod.mk.inj h).1.symm

/-- Opening a file either fails or loads it for a new resolver. -/
theorem openFile_eq (p : Program) (path : String) (format : Option Format) (facts : Facts) :
    let source : Source := ⟨path, format.getD (Format.ofPath path)⟩
    (∃ fault, source.load p.files = .error fault ∧
      p.openFile path format facts = (p, .error fault)) ∨
    ∃ d, source.load p.files = .ok d ∧ p.openFile path format facts =
      (((p.log (.loaded path d.version d.size)).addResolver (.create source facts d)).1,
        .ok p.resolvers.length) := by
  unfold openFile
  dsimp only
  split
  · rename_i fault hload
    exact .inl ⟨fault, hload, rfl⟩
  · rename_i d hload
    exact .inr ⟨d, hload, rfl⟩

theorem length_startWatch (p : Program) (i : ResolverId) (notifier : Source → Notifier)
    (hasRuntime : Bool) :
    (p.startWatch i notifier hasRuntime).1.resolvers.length = p.resolvers.length := by
  rcases p.startWatch_eq i notifier hasRuntime with
    ⟨fault, hq⟩ | ⟨source, q, hears, -, -, hsubscribe, hq⟩
  · rw [hq]
  · rw [hq]
    rcases subscribe_eq_ok hsubscribe with rfl | ⟨path, directory, rfl⟩
    · simp [launch, modifyResolver, log, note]
    · simp [launch, modifyResolver, log, note]

/-- What opening from a configuration comes to, in the order in which it is checked. -/
inductive Bootstrap (p : Program) (c : Config) (hasRuntime : Bool)
    (watchable : String → Bool) : Program × Except Fault ResolverId → Prop
  | noFacts {fault : Fault} : c.facts = .error fault →
    Bootstrap p c hasRuntime watchable (p, .error fault)
  | notLoaded {facts : Facts} {fault : Fault} : c.facts = .ok facts →
    p.openFile c.path c.format facts = (p, .error fault) →
    Bootstrap p c hasRuntime watchable (p, .error fault)
  | unwatched {facts : Facts} {q : Program} : c.facts = .ok facts →
    p.openFile c.path c.format facts = (q, .ok p.resolvers.length) → c.watch.enabled = false →
    Bootstrap p c hasRuntime watchable (q, .ok p.resolvers.length)
  | watched {facts : Facts} {q : Program} {w : WatchId} : c.facts = .ok facts →
    p.openFile c.path c.format facts = (q, .ok p.resolvers.length) → c.watch.enabled = true →
    (q.watchFile p.resolvers.length hasRuntime watchable).2 = .ok w →
    Bootstrap p c hasRuntime watchable
      ((q.watchFile p.resolvers.length hasRuntime watchable).1, .ok p.resolvers.length)
  | refused {facts : Facts} {q : Program} {fault : Fault} : c.facts = .ok facts →
    p.openFile c.path c.format facts = (q, .ok p.resolvers.length) → c.watch.enabled = true →
    (q.watchFile p.resolvers.length hasRuntime watchable).2 = .error fault →
    Bootstrap p c hasRuntime watchable
      ((q.watchFile p.resolvers.length hasRuntime watchable).1, .error fault)

theorem openConfig_of_error {p q : Program} {c : Config} {facts : Facts} {fault : Fault}
    (hfacts : c.facts = .ok facts) (h : p.openFile c.path c.format facts = (q, .error fault))
    (hasRuntime : Bool) (watchable : String → Bool) :
    p.openConfig c hasRuntime watchable = (q, .error fault) := by
  simp only [openConfig, hfacts, h]

theorem openConfig_of_ok {p q : Program} {c : Config} {facts : Facts} {i : ResolverId}
    (hfacts : c.facts = .ok facts) (h : p.openFile c.path c.format facts = (q, .ok i))
    (hasRuntime : Bool) (watchable : String → Bool) :
    p.openConfig c hasRuntime watchable =
      if c.watch.enabled then
        ((q.watchFile i hasRuntime watchable).1,
          (q.watchFile i hasRuntime watchable).2.map fun _ => i)
      else (q, .ok i) := by
  simp only [openConfig, hfacts, h]
  cases q.watchFile i hasRuntime watchable with
  | mk q' answer => cases answer <;> rfl

theorem bootstrap_openConfig (p : Program) (c : Config) (hasRuntime : Bool)
    (watchable : String → Bool) :
    Bootstrap p c hasRuntime watchable (p.openConfig c hasRuntime watchable) := by
  cases hfacts : c.facts with
  | error fault =>
    rw [openConfig, hfacts]
    exact .noFacts hfacts
  | ok facts =>
    rcases p.openFile_eq c.path c.format facts with ⟨fault, -, hq⟩ | ⟨d, -, hq⟩
    · rw [openConfig_of_error hfacts hq]
      exact .notLoaded hfacts hq
    · rw [openConfig_of_ok hfacts hq]
      cases henabled : c.watch.enabled with
      | false => exact .unwatched hfacts hq henabled
      | true =>
        rw [if_pos rfl]
        generalize hwatch : (watchFile _ p.resolvers.length hasRuntime watchable).2 = answer
        cases answer with
        | error fault => exact .refused hfacts hq henabled hwatch
        | ok w => exact .watched hfacts hq henabled hwatch

theorem length_openFile {p q : Program} {path : String} {format : Option Format} {facts : Facts}
    {i : ResolverId} (h : p.openFile path format facts = (q, .ok i)) :
    q.resolvers.length = p.resolvers.length + 1 := by
  rcases p.openFile_eq path format facts with ⟨fault, -, hq⟩ | ⟨d, -, hq⟩
  · cases h.symm.trans hq
  · cases h.symm.trans hq
    simp [addResolver, log, note]

theorem openConfig_eq_ok {p q : Program} {c : Config} {hasRuntime : Bool}
    {watchable : String → Bool} {i : ResolverId}
    (h : p.openConfig c hasRuntime watchable = (q, .ok i)) :
    i = p.resolvers.length ∧ q.resolvers.length = p.resolvers.length + 1 := by
  have hbootstrap := p.bootstrap_openConfig c hasRuntime watchable
  rw [h] at hbootstrap
  cases hbootstrap with
  | unwatched _ hq _ => exact ⟨rfl, length_openFile hq⟩
  | watched _ hq _ _ => exact ⟨rfl, (length_startWatch _ _ _ _).trans (length_openFile hq)⟩

/-! ## Names -/

theorem NamesExist.of_reached {p : Program} (h : p.NamesExist) {settings : Access} {i : ResolverId}
    (reached : p.reached settings = some i) : i < p.resolvers.length := by
  cases settings with
  | named name => exact h.settings _ (KeyMap.mem_of_get? reached)
  | installed => exact h.installed i reached

theorem NamesExist.of_length_le {p q : Program} (h : p.NamesExist) (hnames : q.names = p.names)
    (hinstalled : q.installed = p.installed) (hresolvers : p.resolvers.length ≤ q.resolvers.length)
    (hregistries : p.registries.length ≤ q.registries.length) : q.NamesExist where
  settings entry member :=
    Nat.lt_of_lt_of_le (h.settings entry (hnames ▸ member)) hresolvers
  registries entry member :=
    Nat.lt_of_lt_of_le (h.registries entry (hnames ▸ member)) hregistries
  installed i hi := Nat.lt_of_lt_of_le (h.installed i (hinstalled ▸ hi)) hresolvers

theorem NamesExist.holdSettings {p : Program} (h : p.NamesExist) {i : ResolverId}
    (hi : i < p.resolvers.length) (name : String) : (p.holdSettings name i).NamesExist where
  settings := by
    intro entry member
    rcases KeyMap.mem_insert member with rfl | member
    · exact hi
    · exact h.settings entry member
  registries := h.registries
  installed := h.installed

theorem NamesExist.rebind {p : Program} (h : p.NamesExist) (change : Rebinding) :
    (p.rebind change).NamesExist := by
  cases change with
  | clone settings copy =>
    rw [Program.rebind]
    cases hi : p.reached settings with
    | none => exact h
    | some i => exact h.holdSettings (h.of_reached hi) copy
  | drop name =>
    refine ⟨fun entry member => ?_, h.registries, h.installed⟩
    exact h.settings entry (KeyMap.mem_of_mem_erase member)
  | install settings =>
    rw [Program.rebind]
    cases hi : p.reached settings with
    | none => exact h
    | some i =>
      refine ⟨h.settings, h.registries, fun j hj => ?_⟩
      obtain rfl := Option.some.inj hj
      exact h.of_reached hi
  | uninstall => exact ⟨h.settings, h.registries, fun j hj => by cases hj⟩

/-- A relation that is kept by every change that steps are made of, except for starts and stops of
watches. A round of a resolver and the line that logs it are one change. -/
structure Upheld (R : Program → Program → Prop) : Prop where
  refl (p : Program) : R p p
  trans {p q r : Program} : R p q → R q r → R p r
  note (p : Program) {o : Occurrence} : o.logsRound = false → R p (p.note o)
  changeFiles (p : Program) (files : FileStore) : R p { p with files }
  refer {p : Program} {names : Names} {installed : Option ResolverId} :
    (p.NamesExist → NamesExist { p with names, installed }) → R p { p with names, installed }
  addRegistry (p : Program) : R p { p with registries := p.registries ++ [{}] }
  addResolver (p : Program) {r : Resolver} : r.watch = .idle → r.registry = {} →
    R p (p.addResolver r).1
  register (p : Program) (owner : Owner) (callback : Callback) : (p.NamesExist → p.Has owner) →
    R p (p.register owner callback).1
  atOnce {p q : Program} (owner : Owner) (callback : Callback) : (p.NamesExist → p.Has owner) →
    R ((p.register owner callback).1.enter p.callbacks.length
      (.calledAtOnce p.callbacks.length)) q → R p q
  cancel (p : Program) (owner : Owner) (handle : Nat) : R p (p.cancel owner handle)
  round {p q : Program} {i : Nat} {completed : Nat} :
    Calls R p.journal.length (p.registry (.registry i)).live (p.mark (.began (.registry i)), 0)
      (q, completed) →
    R p (q.mark (.ended p.journal.length completed))
  announce {p q : Program} {i : ResolverId} {completed : Nat} (number : Nat) (version : Int64) :
    Calls R p.journal.length (p.registry (.resolver i)).live (p.mark (.began (.resolver i)), 0)
      (q, completed) →
    R p ((q.mark (.ended p.journal.length completed)).log (.invoked i number version completed))
  publish (p : Program) (i : ResolverId) (d : Document) : R p (p.publish i d)
  tend {p : Program} {watches : List Watch} : watches.map Watch.task = p.watches.map Watch.task →
    R p { p with watches }
  endTask (p : Program) (w : WatchId) : R p (p.endTask w)

namespace Upheld

variable {R : Program → Program → Prop} (h : Upheld R)
include h

theorem rebind (p : Program) (change : Rebinding) : R p (p.rebind change) := by
  have rebound := p.rebind_eq change
  rw [rebound]
  exact h.refer fun exist => rebound ▸ exist.rebind change

theorem respected : Respected R where
  refl := h.refl
  trans := h.trans
  record p text := h.note p rfl
  register := h.register
  atOnce := h.atOnce
  cancel := h.cancel
  rebind := h.rebind
  round := h.round
  reload hq called := by
    obtain ⟨r, source, -, -, -, -, rfl⟩ := reloadDocument_eq_ok hq
    exact h.trans (h.publish _ _ _) (h.announce _ _ called)

theorem announced (p : Program) (i : ResolverId) (published : Publication) :
    R p (p.announce i published) := by
  obtain ⟨q, completed, each, hq⟩ := exists_runsEach_invokeAllWith run p (.resolver i)
  rw [Program.announce, announceWith, hq]
  exact h.announce _ _ (each.calls h.respected.run)

theorem foldl {α : Type} {f : Program → α → Program} (hf : ∀ p a, R p (f p a)) (l : List α)
    (p : Program) : R p (l.foldl f p) :=
  h.respected.foldl hf l p

theorem rename {p : Program} {f : Names → Names} (hf : p.NamesExist → (p.rename f).NamesExist) :
    R p (p.rename f) := by
  show R p { p with names := f p.names, installed := p.installed }
  exact h.refer hf

theorem modifyWatch (p : Program) (w : WatchId) {f : Watch → Watch}
    (hf : ∀ watch, (f watch).task = watch.task) : R p (p.modifyWatch w f) :=
  h.tend (map_modify_of_eq hf _ w)

theorem reloadDocument (p : Program) (i : ResolverId) : R p (p.reloadDocument i).1 := by
  cases hq : p.reloadDocument i with
  | mk q answer =>
    cases answer with
    | error fault =>
      obtain rfl := reloadDocument_eq_error hq
      exact h.refl q
    | ok published =>
      obtain ⟨r, source, -, -, -, -, rfl⟩ := reloadDocument_eq_ok hq
      exact h.publish p i _

/-! ## Watches and files -/

theorem send (p : Program) (w : WatchId) (e : WatchEvent) : R p (p.send w e).1 := by
  unfold Program.send
  split
  · exact h.modifyWatch p w fun _ => rfl
  · exact h.refl p

theorem notify (p : Program) (names : Option (List String)) : R p (p.notify names) := by
  refine h.foldl (fun q w => ?_) _ p
  split
  · exact h.send q w .changed
  · exact h.refl q

theorem writeFile (p : Program) (path : String) (content : Option String) :
    R p (p.writeFile path content) :=
  h.trans (h.changeFiles p _) (h.notify _ _)

theorem replaceFile (p : Program) (path staging : String) (content : Option String) :
    R p (p.replaceFile path staging content) :=
  h.trans (h.writeFile p staging content) (h.trans (h.changeFiles _ _) (h.notify _ _))

theorem removeDirectory (p : Program) (path : String) : R p (p.removeDirectory path) := by
  unfold Program.removeDirectory
  split
  · rename_i names _
    refine h.trans (h.changeFiles p _) (h.tend ?_)
    rw [List.map_map]
    rfl
  · exact h.refl p

theorem endTaskIfOver (p : Program) (w : WatchId) : R p (p.endTaskIfOver w) := by
  unfold Program.endTaskIfOver
  split
  · exact h.endTask p w
  · exact h.refl p

theorem handleEvent (p : Program) (w : WatchId) : R p (p.handleEvent w) := by
  unfold Program.handleEvent
  split
  · exact h.refl p
  · rename_i watch _
    split
    · exact h.refl p
    · rename_i event later _
      have htaken : R p (p.modifyWatch w fun watch => { watch with events := later }) :=
        h.modifyWatch p w fun _ => rfl
      refine h.trans htaken ?_
      cases event with
      | fault message => exact h.note _ rfl
      | changed =>
        have hreload := h.reloadDocument
          (p.modifyWatch w fun watch => { watch with events := later }) watch.resolver
        dsimp only
        split
        · split
          · rename_i q published hq
            rw [hq] at hreload
            exact h.trans hreload (h.modifyWatch q w fun _ => rfl)
          · rename_i q fault hq
            rw [hq] at hreload
            exact h.trans hreload (h.note q rfl)
        · exact h.endTask _ w

theorem dispatch (p : Program) (w : WatchId) : R p (p.dispatch w) := by
  unfold Program.dispatch
  split
  · exact h.refl p
  · rename_i watch _
    split
    · exact h.refl p
    · rename_i next later _
      split
      · have htaken : R p (p.modifyWatch w fun watch => { watch with published := later }) :=
          h.modifyWatch p w fun _ => rfl
        exact h.trans htaken (h.announced _ _ _)
      · exact h.modifyWatch p w fun _ => rfl

/-! ## Handles -/

theorem elim {α : Type} {p : Program} {found : Option α} {f : α → Program}
    (hf : ∀ a, found = some a → R p (f a)) : R p (found.elim p f) := by
  cases found with
  | none => exact h.refl p
  | some a => exact hf a rfl

theorem getSafe (p : Program) (i : ResolverId) (path : List String) : R p (p.getSafe i path).1 := by
  unfold Program.getSafe
  split
  · exact h.refl p
  · split
    · exact h.refl p
    · exact h.note p rfl

theorem openFile (p : Program) (path : String) (format : Option Format) (facts : Facts) :
    R p (p.openFile path format facts).1 := by
  rcases p.openFile_eq path format facts with ⟨fault, -, hq⟩ | ⟨d, -, hq⟩
  · rw [hq]
    exact h.refl p
  · rw [hq]
    exact h.trans (h.note p rfl) (h.addResolver _ rfl rfl)

theorem startWatch (p : Program) (i : ResolverId) (notifier : Source → Notifier)
    (hasRuntime : Bool) (hlaunch : ∀ q hears, q.watchStatus i ≠ .watching →
      i < q.resolvers.length → R q (q.launch i hears)) :
    R p (p.startWatch i notifier hasRuntime).1 := by
  rcases p.startWatch_eq i notifier hasRuntime with
    ⟨fault, hq⟩ | ⟨source, q, hears, hsource, hstatus, hsubscribe, hq⟩
  · rw [hq]
    exact h.refl p
  · rw [hq]
    obtain ⟨r, hr, -⟩ := Option.bind_eq_some_iff.1 hsource
    obtain ⟨hi, -⟩ := List.getElem?_eq_some_iff.1 hr
    rcases subscribe_eq_ok hsubscribe with rfl | ⟨path, directory, rfl⟩
    · exact h.trans (hlaunch q hears hstatus hi) (h.note _ rfl)
    · exact h.trans (h.note p rfl) (h.trans (hlaunch _ hears hstatus hi) (h.note _ rfl))

theorem holdOpened {p : Program} {opened : Program × Except Fault ResolverId} (name : String)
    (hopened : R p opened.1)
    (hi : ∀ i, opened.2 = .ok i → i < opened.1.resolvers.length) :
    R p (Program.holdOpened name opened) := by
  obtain ⟨q, answer⟩ := opened
  cases answer with
  | error fault => exact hopened
  | ok i => exact h.trans hopened (h.rename fun exist => exist.holdSettings (hi i rfl) name)

theorem openConfig (p : Program) (c : Config) (hasRuntime : Bool) (watchable : String → Bool)
    (hlaunch : ∀ q i hears, q.watchStatus i ≠ .watching → i < q.resolvers.length →
      R q (q.launch i hears)) : R p (p.openConfig c hasRuntime watchable).1 := by
  have hopen {facts : Facts} {q : Program} {answer : Except Fault ResolverId}
      (hq : p.openFile c.path c.format facts = (q, answer)) : R p q := by
    have hopened := h.openFile p c.path c.format facts
    rwa [hq] at hopened
  have hwatch (q : Program) (i : ResolverId) : R q (q.watchFile i hasRuntime watchable).1 :=
    h.startWatch q i _ hasRuntime fun q' => hlaunch q' i
  have hbootstrap := p.bootstrap_openConfig c hasRuntime watchable
  generalize p.openConfig c hasRuntime watchable = result at hbootstrap
  cases hbootstrap with
  | noFacts => exact h.refl p
  | notLoaded => exact h.refl p
  | unwatched _ hq _ => exact hopen hq
  | watched _ hq _ _ => exact h.trans (hopen hq) (hwatch _ _)
  | refused _ hq _ _ => exact h.trans (hopen hq) (hwatch _ _)

theorem holdHandle (p : Program) (name : String) (handle : Nat) : R p (p.holdHandle name handle) :=
  h.rename fun exist => ⟨exist.settings, exist.registries, exist.installed⟩

theorem holdReceiver (p : Program) (name : String) (r : Receiver) : R p (p.holdReceiver name r) :=
  h.rename fun exist => ⟨exist.settings, exist.registries, exist.installed⟩

theorem holdRegistered {p : Program} {registered : Program × Outcome × Nat} (name : String)
    (hregistered : R p registered.1) : R p (Program.holdRegistered name registered) := by
  obtain ⟨q, outcome, handle⟩ := registered
  cases outcome with
  | completed => exact h.trans hregistered (h.holdHandle q name handle)
  | panicked message => exact hregistered

theorem holdNotifier {p : Program} {started : Program × Except Fault WatchId} (name : String)
    (hstarted : R p started.1) : R p (Program.holdNotifier name started) := by
  obtain ⟨q, answer⟩ := started
  cases answer with
  | error fault => exact hstarted
  | ok w =>
    have hheld : R q (q.rename fun n => { n with notifiers := n.notifiers.insert name w }) :=
      h.rename fun exist => ⟨exist.settings, exist.registries, exist.installed⟩
    exact h.trans hstarted hheld

/-! ## All steps -/

theorem act (p : Program) (a : Action)
    (hlaunch : a.mayStart = true → ∀ q i hears, q.watchStatus i ≠ .watching →
      i < q.resolvers.length → R q (q.launch i hears))
    (hstop : a.mayStop = true → R p (p.act a)) : R p (p.act a) := by
  cases a with
  | openFile name path format facts =>
    refine h.holdOpened name (h.openFile p path format facts) fun i hi => ?_
    rcases p.openFile_eq path format facts with ⟨fault, -, hq⟩ | ⟨d, -, hq⟩
    · rw [hq] at hi
      cases hi
    · rw [hq] at hi ⊢
      obtain rfl := Except.ok.inj hi
      simp [Program.addResolver, Program.log, Program.note]
  | openDocument name d facts =>
    refine h.trans (h.addResolver p rfl rfl) (h.rename fun exist => exist.holdSettings ?_ name)
    simp [Program.addResolver]
  | openConfig name c hasRuntime watchable =>
    refine h.holdOpened name (h.openConfig p c hasRuntime watchable (hlaunch rfl)) fun i hi => ?_
    have hresult : p.openConfig c hasRuntime watchable =
        ((p.openConfig c hasRuntime watchable).1, .ok i) :=
      Prod.ext rfl hi
    obtain ⟨rfl, hlength⟩ := openConfig_eq_ok hresult
    rw [hlength]
    exact Nat.lt_succ_self _
  | clone settings copy => exact h.rebind p (.clone settings copy)
  | drop name => exact h.rebind p (.drop name)
  | install settings => exact h.rebind p (.install settings)
  | uninstall => exact h.rebind p .uninstall
  | getSafe settings path => exact h.elim fun i _ => h.getSafe p i path
  | subscribe settings name => exact h.elim fun i _ => h.holdReceiver p name _
  | receive name => exact h.elim fun r _ => h.holdReceiver p name _
  | onUpdate settings name callback now =>
    refine h.elim fun i hi => h.holdRegistered name ?_
    exact h.respected.onUpdate p callback now fun exist => exist.of_reached hi
  | cancelUpdate settings handle =>
    exact h.elim fun i _ => h.elim fun index _ => h.cancel p _ index
  | reload settings => exact h.elim fun i _ => h.respected.reloaded p i
  | newRegistry name =>
    refine h.trans (h.addRegistry p) ?_
    show R { p with registries := p.registries ++ [{}] }
      (Program.rename { p with registries := p.registries ++ [{}] }
        fun n => { n with registries := n.registries.insert name p.registries.length })
    refine h.rename fun exist => ⟨exist.settings, fun entry member => ?_, exist.installed⟩
    rcases KeyMap.mem_insert member with rfl | member
    · simp [Program.rename]
    · exact exist.registries entry member
  | registerIn registry name callback =>
    refine h.elim fun i hi => h.trans (h.register p _ callback fun exist => ?_) (h.holdHandle _ _ _)
    exact exist.registries _ (KeyMap.mem_of_get? hi)
  | cancelIn registry handle =>
    exact h.elim fun i _ => h.elim fun index _ => h.cancel p _ index
  | invoke registry => exact h.elim fun i _ => h.respected.invokeAll p _
  | startWatch settings name notifier hasRuntime =>
    refine h.elim fun i _ => h.holdNotifier name ?_
    exact h.startWatch p i notifier hasRuntime fun q => hlaunch rfl q i
  | stopWatch settings => exact hstop rfl
  | requestStop settings => exact hstop rfl
  | writeFile path content => exact h.writeFile p path content
  | replaceFile path staging content => exact h.replaceFile p path staging content
  | removeDirectory path => exact h.removeDirectory p path
  | changeFiles change => exact h.changeFiles p _
  | send w e => exact h.send p w e
  | close w => exact h.modifyWatch p w fun _ => rfl
  | takeEvent w => exact h.handleEvent p w
  | endTask w => exact h.endTaskIfOver p w
  | dispatch w => exact h.dispatch p w

end Upheld

/-- A relation that is kept by stops that are run to their end, too. -/
structure Maintained (R : Program → Program → Prop) : Prop extends Upheld R where
  stop {p : Program} {i : ResolverId} {w : WatchId} : (p.requestStop i).2 = some w →
    R p ((p.requestStop i).1.endTask w)

namespace Maintained

variable {R : Program → Program → Prop} (h : Maintained R)
include h

theorem stopAndLog (p : Program) (i : ResolverId) : R p (p.stopAndLog i) := by
  unfold Program.stopAndLog Program.stopWatch
  cases hq : p.requestStop i with
  | mk q stopped =>
    cases stopped with
    | none =>
      have hsame : q = p := requestStop_eq_none hq
      exact hsame ▸ h.refl p
    | some w =>
      have hstop := h.stop (p := p) (i := i) (w := w) (by rw [hq])
      rw [hq] at hstop
      exact h.trans hstop (h.note _ rfl)

theorem act (p : Program) (a : Action)
    (hlaunch : a.mayStart = true → ∀ q i hears, q.watchStatus i ≠ .watching →
      i < q.resolvers.length → R q (q.launch i hears))
    (hstop : a.beginsStop = true → ∀ i, R p (p.requestStop i).1) : R p (p.act a) := by
  refine h.toUpheld.act p a hlaunch fun stops => ?_
  cases a with
  | stopWatch settings => exact h.elim fun i _ => h.stopAndLog p i
  | requestStop settings => exact h.elim fun i _ => hstop rfl i
  | _ => cases stops

theorem after (hlaunch : ∀ q i hears, q.watchStatus i ≠ .watching → i < q.resolvers.length →
    R q (q.launch i hears)) (run : List Action)
    (hstop : (∀ a ∈ run, a.beginsStop = false) ∨ ∀ q i, R q (q.requestStop i).1) (p : Program) :
    R p (p.after run) := by
  induction run generalizing p with
  | nil => exact h.refl p
  | cons a run ih =>
    have hact : R p (p.act a) := by
      refine h.act p a (fun _ => hlaunch) fun hbegins => ?_
      rcases hstop with hcompleted | hstop
      · have hnot := hcompleted a (List.mem_cons_self ..)
        exact absurd hbegins (hnot ▸ Bool.false_ne_true)
      · exact hstop p
    have hlater : (∀ a ∈ run, a.beginsStop = false) ∨ ∀ q i, R q (q.requestStop i).1 :=
      hstop.imp_left fun hcompleted b member => hcompleted b (List.mem_cons_of_mem a member)
    exact h.trans hact (ih hlater (p.act a))

end Maintained
end Program
end LayeredSettings
