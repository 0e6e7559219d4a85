import LayeredSettings.Proofs.Program.Roster
import LayeredSettings.Proofs.Program.Conservation

/-!
Reloads by events and reloads by hand.

An event that is taken by the reload task, with what it publishes dispatched, leaves a program as a
reload by hand does. Only a failure is reported to the log in one case and to the caller in the
other.
-/

namespace LayeredSettings.Program

/-! ## What a program looks like -/

def live? (p : Program) (i : ResolverId) : Option Document := p.resolvers[i]?.map (·.live)

/-- What every subscriber of a resolver gets. -/
def latest? (p : Program) (i : ResolverId) : Option Publication := p.resolvers[i]?.map (·.latest)

/-- What callbacks have recorded. -/
def recordings (p : Program) : List String := p.history.filterMap Occurrence.recording?

/-- Two programs in which documents, subscribers, registries and watches are the same, the same
callbacks have run to the same effect, and the same answers are given. -/
structure LooksSame (p q : Program) : Prop where
  live : ∀ i, q.live? i = p.live? i
  latest : ∀ i, q.latest? i = p.latest? i
  hasChanged : ∀ receiver, q.hasChanged receiver = p.hasChanged receiver
  registry : ∀ owner, q.registry owner = p.registry owner
  watchStatus : ∀ i, q.watchStatus i = p.watchStatus i
  isRunning : ∀ w, q.isRunning w = p.isRunning w
  journal : q.journal = p.journal
  callbacks : q.callbacks = p.callbacks
  recordings : q.recordings = p.recordings
  getSafe : ∀ i path, (q.getSafe i path).2 = (p.getSafe i path).2
  get : ∀ i path, (q.get i path).2 = (p.get i path).2
  getAs : ∀ i path shape, (q.getAs i path shape).2 = (p.getAs i path shape).2

theorem getSafe_snd (p : Program) (i : ResolverId) (path : List String) :
    (p.getSafe i path).2 = p.resolvers[i]?.bind (·.resolve? path) := by
  unfold getSafe
  split
  · rename_i hi
    rw [hi]
    rfl
  · rename_i r hi
    rw [hi]
    split <;> simp [*]

theorem get_snd (p : Program) (i : ResolverId) (path : List String) :
    (p.get i path).2 = (p.getSafe i path).2.elim (.error (.notFound path)) .ok := by
  unfold get
  split <;> simp [*]

section
variable {α : Type}

theorem getWith_fst (p : Program) (i : ResolverId) (path : List String)
    (read : Json → Except Mismatch α) : (p.getWith i path read).1 = (p.get i path).1 := by
  unfold getWith
  split <;> simp [*]

theorem getWith_snd (p : Program) (i : ResolverId) (path : List String)
    (read : Json → Except Mismatch α) :
    (p.getWith i path read).2 =
      (p.get i path).2.bind fun v => (read v.toJson).mapError (.conversion path) := by
  unfold getWith
  split <;> simp [*, Except.bind]

end

theorem getAs_snd (p : Program) (i : ResolverId) (path : List String) (shape : Shape) :
    (p.getAs i path shape).2 =
      (p.get i path).2.bind fun v => (shape.read v.toJson).mapError (.conversion path) :=
  p.getWith_snd i path shape.read

/-- What waits for tasks and what was logged shows nowhere. -/
theorem LooksSame.of_tasks {p : Program} {watches : List Watch} {history : List Occurrence}
    (htasks : watches.map Watch.task = p.watches.map Watch.task)
    (hrecordings : history.filterMap Occurrence.recording? = p.recordings) :
    LooksSame p { p with watches, history } := by
  have hroster : Program.roster { p with watches, history } = p.roster := by
    simp only [roster, htasks]
  have hgetSafe : ∀ i path, (Program.getSafe { p with watches, history } i path).2 =
      (p.getSafe i path).2 := fun i path => by rw [getSafe_snd, getSafe_snd]
  have hget : ∀ i path, (Program.get { p with watches, history } i path).2 = (p.get i path).2 :=
    fun i path => by rw [get_snd, get_snd, hgetSafe]
  constructor
  case live => exact fun _ => rfl
  case latest => exact fun _ => rfl
  case hasChanged => exact fun _ => rfl
  case registry => exact fun owner => by cases owner <;> rfl
  case watchStatus =>
    intro i
    rw [watchStatus_eq_status, watchStatus_eq_status, hroster]
  case isRunning =>
    intro w
    rw [isRunning_eq_any, isRunning_eq_any, hroster]
  case journal => rfl
  case callbacks => rfl
  case recordings => exact hrecordings
  case getSafe => exact hgetSafe
  case get => exact hget
  case getAs =>
    intro i path shape
    rw [getAs_snd, getAs_snd, hget]

theorem LooksSame.refl (p : Program) : LooksSame p p := .of_tasks rfl rfl

theorem LooksSame.log (p : Program) (d : Diagnostic) : LooksSame p (p.log d) := by
  have hsame : LooksSame p { p with watches := p.watches, history := .logged d :: p.history } :=
    .of_tasks rfl rfl
  exact hsame

/-! ## One event from its arrival on -/

/-- A watch of a resolver whose tasks wait for what comes next. -/
structure Waits (p : Program) (i : ResolverId) (w : WatchId) (watch : Watch) : Prop where
  found : p.watches[w]? = some watch
  own : watch.resolver = i
  accepts : watch.accepts = true
  events : watch.events = []
  published : watch.published = []

/-- An event comes, the reload task takes it, and what it publishes is dispatched. -/
def handled (p : Program) (w : WatchId) (e : WatchEvent) : Program :=
  ((p.send w e).1.handleEvent w).runDispatcher w

theorem modifyWatch_modifyWatch (p : Program) (w : WatchId) (f g : Watch → Watch) :
    (p.modifyWatch w f).modifyWatch w g = p.modifyWatch w (g ∘ f) := by
  simp only [modifyWatch, List.modify_modify_eq]

theorem modifyWatch_congr {p : Program} {w : WatchId} {watch : Watch} {f g : Watch → Watch}
    (hw : p.watches[w]? = some watch) (hfg : f watch = g watch) :
    p.modifyWatch w f = p.modifyWatch w g := by
  simp only [modifyWatch, List.modify_eq_set_getElem?, hw, Option.map_eq_map, Option.map_some, hfg]

theorem modifyWatch_eq_self {p : Program} {w : WatchId} {watch : Watch} {f : Watch → Watch}
    (hw : p.watches[w]? = some watch) (hf : f watch = watch) : p.modifyWatch w f = p := by
  have hsame : p.watches.modify w f = p.watches := by
    refine modify_eq_self_of fun found hfound => ?_
    rw [hw] at hfound
    exact Option.some.inj hfound ▸ hf
  rw [modifyWatch, hsame]

theorem getElem?_modifyWatch {p : Program} {w : WatchId} {watch : Watch} (f : Watch → Watch)
    (hw : p.watches[w]? = some watch) : (p.modifyWatch w f).watches[w]? = some (f watch) := by
  simp [modifyWatch, hw]

theorem inUse_of_reached {p : Program} {settings : Access} {i : ResolverId}
    (held : p.reached settings = some i) : p.inUse i = true := by
  cases settings with
  | named name =>
    have member := KeyMap.mem_of_get? held
    have hany : p.names.settings.any (·.2 = i) = true :=
      List.any_eq_true.2 ⟨(name, i), member, by simp⟩
    rw [inUse, hany, Bool.true_or]
  | installed =>
    have hinstalled : p.installed = some i := held
    simp [inUse, hinstalled]

theorem handleEvent_changed {p : Program} {w : WatchId} {watch : Watch} {later : List WatchEvent}
    {r : Resolver} (hw : p.watches[w]? = some watch) (hevents : watch.events = .changed :: later)
    (used : p.inUse watch.resolver = true) (hr : p.resolvers[watch.resolver]? = some r) :
    p.handleEvent w =
      match p.reloadDocument watch.resolver with
      | (q, .ok published) => q.modifyWatch w fun watch =>
        { watch with events := later, published := watch.published ++ [published] }
      | (q, .error fault) => (q.modifyWatch w fun watch => { watch with events := later }).log
        (.reloadFailed watch.resolver fault r.version) := by
  have hused : (p.modifyWatch w fun watch => { watch with events := later }).inUse watch.resolver =
      true := used
  have hresolver : (p.modifyWatch w fun watch => { watch with events := later }).resolvers[
      watch.resolver]? = some r := hr
  simp only [handleEvent, hw, hevents, hused, hresolver, reloadDocument_modifyWatch]
  cases p.reloadDocument watch.resolver with
  | mk q answer =>
    cases answer with
    | error fault => rfl
    | ok published => exact modifyWatch_modifyWatch q w _ _

theorem runDispatcher_eq_self {p : Program} {w : WatchId} {watch : Watch}
    (hw : p.watches[w]? = some watch) (hpublished : watch.published = []) :
    p.runDispatcher w = p := by
  simp [runDispatcher, hw, hpublished, Nat.repeat]

theorem runDispatcher_singleton {p : Program} {w : WatchId} {watch : Watch} {next : Publication}
    (hw : p.watches[w]? = some watch) (hpublished : watch.published = [next])
    (used : p.inUse watch.resolver = true) :
    p.runDispatcher w = (p.modifyWatch w fun watch => { watch with published := [] }).announce
      watch.resolver next := by
  have hturn : min turn 1 = 1 := rfl
  simp [runDispatcher, hw, hpublished, hturn, Nat.repeat, dispatch, used]

theorem inUse_publish (p : Program) (i : ResolverId) (d : Document) (j : ResolverId) :
    (p.publish i d).inUse j = p.inUse j := by
  unfold publish
  split <;> rfl

section
variable {p : Program} {i : ResolverId} {w : WatchId} {watch : Watch} {r : Resolver}
  (waits : p.Waits i w watch) (used : p.inUse i = true) (hr : p.resolvers[i]? = some r)
include waits used hr

theorem handleEvent_send :
    (p.send w .changed).1.handleEvent w =
      match p.reloadDocument i with
      | (q, .ok published) => q.modifyWatch w fun watch => { watch with published := [published] }
      | (_, .error fault) => p.log (.reloadFailed i fault r.version) := by
  obtain ⟨found, rfl, accepts, events, published⟩ := waits
  have hsend : (p.send w .changed).1 = p.modifyWatch w (·.push .changed) := by
    simp [send, found, accepts]
  have hpushed : (p.modifyWatch w (·.push .changed)).watches[w]? = some (watch.push .changed) :=
    getElem?_modifyWatch _ found
  have hevents : (watch.push .changed).events = .changed :: [] := by simp [Watch.push, events]
  rw [hsend, handleEvent_changed hpushed hevents used hr, reloadDocument_modifyWatch]
  dsimp only [Watch.push]
  cases hq : p.reloadDocument watch.resolver with
  | mk q answer =>
    cases answer with
    | error fault =>
      obtain rfl := reloadDocument_eq_error hq
      dsimp only
      have htaken : ({ watch with events := [] } : Watch) = watch := by rw [← events]
      rw [modifyWatch_modifyWatch, modifyWatch_eq_self found htaken]
    | ok publication =>
      obtain ⟨_, _, _, _, _, _, rfl⟩ := reloadDocument_eq_ok hq
      have hfound : (p.publish watch.resolver publication.document).watches[w]? = some watch := by
        rw [watches_publish]
        exact found
      dsimp only
      rw [modifyWatch_modifyWatch]
      exact modifyWatch_congr hfound (by simp [events, published])

/-- A change that is dealt with to its end comes to a reload. -/
theorem handled_changed :
    p.handled w .changed =
      match p.reload i with
      | (q, .ok _) => q
      | (_, .error fault) => p.log (.reloadFailed i fault r.version) := by
  rw [handled, handleEvent_send waits used hr, reload, reloadWith]
  obtain ⟨found, rfl, accepts, events, published⟩ := waits
  cases hq : p.reloadDocument watch.resolver with
  | mk q answer =>
    cases answer with
    | error fault => exact runDispatcher_eq_self found published
    | ok publication =>
      obtain ⟨_, _, _, _, _, _, rfl⟩ := reloadDocument_eq_ok hq
      have hfound : (p.publish watch.resolver publication.document).watches[w]? = some watch := by
        rw [watches_publish]
        exact found
      have hused : (p.publish watch.resolver publication.document).inUse watch.resolver = true := by
        rw [inUse_publish]
        exact used
      have hqueued := getElem?_modifyWatch
        (fun watch => { watch with published := [publication] }) hfound
      have htaken : ({ watch with published := [] } : Watch) = watch := by rw [← published]
      dsimp only
      rw [runDispatcher_singleton hqueued rfl hused, modifyWatch_modifyWatch,
        modifyWatch_eq_self hfound htaken]
      rfl

end

theorem indifferent_watches : Indifferent fun p q => q.watches = p.watches where
  refl p := rfl
  trans h h' := h'.trans h
  record p text := rfl
  panic p handle message := rfl
  mark p m := rfl
  enter p c m := rfl
  register p owner callback := by cases owner <;> rfl
  cancel p owner handle := by cases owner <;> rfl
  rebind p change := by rw [p.rebind_eq change]
  reload completed hq h := by
    obtain ⟨_, _, _, _, _, _, rfl⟩ := reloadDocument_eq_ok hq
    exact h.trans (watches_publish _ _ _)

theorem watches_reload (p : Program) (i : ResolverId) : (p.reload i).1.watches = p.watches :=
  indifferent_watches.respected.reloaded p i

/-! ## Failures -/

theorem reload_eq_of_error {p : Program} {i : ResolverId} {fault : Fault}
    (h : (p.reloadDocument i).2 = .error fault) : p.reload i = (p, .error fault) := by
  unfold reload reloadWith
  split
  · rename_i q fault' hq
    rw [hq] at h
    cases h
    rw [reloadDocument_eq_error hq]
  · rename_i q published hq
    rw [hq] at h
    cases h

theorem reload_eq_error_iff {p : Program} {i : ResolverId} {fault : Fault} :
    (p.reload i).2 = .error fault ↔ (p.reloadDocument i).2 = .error fault := by
  constructor
  · intro h
    unfold reload reloadWith at h
    split at h
    · rename_i q fault' hq
      cases h
      rw [hq]
    · cases h
  · intro h
    rw [reload_eq_of_error h]

theorem fst_reload_of_error {p : Program} {i : ResolverId} {fault : Fault}
    (h : (p.reload i).2 = .error fault) : (p.reload i).1 = p := by
  rw [reload_eq_of_error (reload_eq_error_iff.1 h)]

section
variable {p : Program} {i : ResolverId} {w : WatchId} {watch : Watch} {r : Resolver}
  (waits : p.Waits i w watch) (used : p.inUse i = true) (hr : p.resolvers[i]? = some r)
include waits used hr

theorem handled_changed_of_ok {version : Int64} (h : (p.reload i).2 = .ok version) :
    p.handled w .changed = (p.reload i).1 := by
  have hanswer : p.reload i = ((p.reload i).1, .ok version) := Prod.ext rfl h
  rw [handled_changed waits used hr, hanswer]

theorem handled_changed_of_error {fault : Fault} (h : (p.reload i).2 = .error fault) :
    p.handled w .changed = p.log (.reloadFailed i fault r.version) := by
  have hanswer : p.reload i = ((p.reload i).1, .error fault) := Prod.ext rfl h
  rw [handled_changed waits used hr, hanswer]

/-- The reload task publishes exactly if a reload by hand succeeds. -/
theorem reloads_handleEvent_send :
    ((p.send w .changed).1.handleEvent w).reloads i = p.reloads i ↔
      ∃ fault, (p.reload i).2 = .error fault := by
  have hcount := reloads_reloadDocument p i i
  rw [handleEvent_send waits used hr]
  simp only [reload_eq_error_iff]
  cases hq : p.reloadDocument i with
  | mk q answer =>
    rw [hq] at hcount
    cases answer with
    | error fault => exact iff_of_true ((Quiet.note rfl p).reloads i) ⟨fault, rfl⟩
    | ok published =>
      refine iff_of_false (fun hsame => ?_) (by rintro ⟨fault, ⟨⟩⟩)
      have hmore : q.reloads i = p.reloads i + 1 := by
        simpa [Except.isOk, Except.toBool] using hcount
      have heq : q.reloads i = p.reloads i := hsame
      omega

end

theorem exists_resolver {run : List Action} {w : WatchId} {watch : Watch}
    (hw : (ofRun run).watches[w]? = some watch) :
    ∃ r, (ofRun run).resolvers[watch.resolver]? = some r := by
  have member : watch.resolver ∈ (ofRun run).roster.watched := by
    rw [Roster.watched, roster, List.map_map]
    exact List.mem_map_of_mem (List.mem_of_getElem? hw)
  have hi := (supervised_ofRun run).known member
  rw [roster, List.length_map] at hi
  exact ⟨_, List.getElem?_eq_getElem hi⟩

/-- A change that is dealt with to its end and a reload by hand are the same. They differ only in
where a failure is told. -/
theorem handled_changed_same {run : List Action} {settings : Access} {i : ResolverId} {w : WatchId}
    {watch : Watch} (held : (ofRun run).reached settings = some i)
    (waits : (ofRun run).Waits i w watch) :
    LooksSame ((ofRun run).reload i).1 ((ofRun run).handled w .changed) ∧
    ((ofRun run).handled w .changed).Waits i w watch ∧
    (∀ version, ((ofRun run).reload i).2 = .ok version →
      (ofRun run).handled w .changed = ((ofRun run).reload i).1) ∧
    (∀ fault, ((ofRun run).reload i).2 = .error fault →
      ((ofRun run).reload i).1 = ofRun run ∧ ∃ r, (ofRun run).resolvers[i]? = some r ∧
        (ofRun run).handled w .changed = (ofRun run).log (.reloadFailed i fault r.version)) ∧
    ((((ofRun run).send w .changed).1.handleEvent w).reloads i = (ofRun run).reloads i ↔
      ∃ fault, ((ofRun run).reload i).2 = .error fault) := by
  obtain ⟨r, hr⟩ := exists_resolver waits.found
  rw [waits.own] at hr
  have used := inUse_of_reached held
  have hok {version : Int64} (h : ((ofRun run).reload i).2 = .ok version) :=
    handled_changed_of_ok waits used hr h
  have herror {fault : Fault} (h : ((ofRun run).reload i).2 = .error fault) :=
    handled_changed_of_error waits used hr h
  have hends : LooksSame ((ofRun run).reload i).1 ((ofRun run).handled w .changed) ∧
      ((ofRun run).handled w .changed).watches = (ofRun run).watches := by
    cases hanswer : ((ofRun run).reload i).2 with
    | ok version =>
      rw [hok hanswer]
      exact ⟨.refl _, watches_reload _ i⟩
    | error fault =>
      rw [herror hanswer, fst_reload_of_error hanswer]
      exact ⟨.log _ _, rfl⟩
  refine ⟨hends.1, ?_, fun version => hok, fun fault hfault => ?_, ?_⟩
  · exact { waits with found := hends.2 ▸ waits.found }
  · exact ⟨fst_reload_of_error hfault, r, hr, herror hfault⟩
  · exact reloads_handleEvent_send waits used hr

/-- While a watch waits, its file has got new content. The callback cancels itself, registers
another one and panics. -/
def rewritten : List Action :=
  [.writeFile "s.json"
      (some "[\x7b\"name\":\"a\",\"settings\":\x7b\"k\":1\x7d\x7d,\x7b\"end\":true\x7d]"),
    .openFile "s" "s.json" none Facts.none,
    .onUpdate (.named "s") "h"
      (fun _ => .cancel "s" 0 (.register "s" (fun _ => .done) false fun _ => .panic none)) false,
    .startWatch (.named "s") "n" (fun _ => .controlled) true,
    .writeFile "s.json" (some "[\x7b\"version\":2,\"end\":true\x7d]")]

theorem handled_changed_rewritten :
    (ofRun rewritten).reached (.named "s") = some 0 ∧ ∃ watch, (ofRun rewritten).Waits 0 0 watch ∧
    ((ofRun rewritten).reload 0).2.isOk = true ∧
    LooksSame ((ofRun rewritten).reload 0).1 ((ofRun rewritten).handled 0 .changed) ∧
    ((ofRun rewritten).handled 0 .changed).journal.length = 6 := by
  have held : (ofRun rewritten).reached (.named "s") = some 0 := by decide +kernel
  have hwaits : (ofRun rewritten).watches[0]?.any (fun watch => watch.resolver = 0 ∧
      watch.accepts = true ∧ watch.events.isEmpty = true ∧
      watch.published.isEmpty = true) = true := by
    decide +kernel
  obtain ⟨watch, found, hwatch⟩ := (Option.any_eq_true _ _).1 hwaits
  obtain ⟨own, accepts, events, published⟩ := of_decide_eq_true hwatch
  have waits : (ofRun rewritten).Waits 0 0 watch :=
    ⟨found, own, accepts, List.isEmpty_iff.1 events, List.isEmpty_iff.1 published⟩
  refine ⟨held, watch, waits, by decide +kernel, (handled_changed_same held waits).1, ?_⟩
  decide +kernel

end LayeredSettings.Program
