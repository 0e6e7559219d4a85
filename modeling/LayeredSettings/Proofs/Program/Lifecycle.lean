import LayeredSettings.Proofs.Except
import LayeredSettings.Proofs.Program.Frame
import LayeredSettings.Proofs.Program.Roster
import LayeredSettings.Proofs.Program.Sessions

/-!
The life of the watches of a resolver.

The status of a resolver tells whether a start has ever succeeded and whether a reload task is
unfinished. A start succeeds exactly if no task is unfinished, and one that fails changes nothing.
-/

namespace LayeredSettings.Program

/-- Whether the reload task of a watch of a resolver has not ended yet. -/
def Unfinished (p : Program) (i : ResolverId) (w : WatchId) : Prop :=
  ∃ watch, p.watches[w]? = some watch ∧ watch.resolver = i ∧ watch.running = true

/-- Every stop that has begun has run to its end. -/
def Settled (p : Program) (i : ResolverId) : Prop :=
  ∀ watch ∈ p.watches, watch.resolver = i → watch.stopRequested = true → watch.running = false

theorem unfinished_roster {p : Program} {i : ResolverId} {w : WatchId} :
    p.roster.Unfinished i w ↔ p.Unfinished i w := by
  simp [Roster.Unfinished, Unfinished, roster, Watch.task]

theorem settled_roster {p : Program} {i : ResolverId} : p.roster.Settled i ↔ p.Settled i := by
  simp [Roster.Settled, Settled, roster, Watch.task]

def startedBy (p : Program) : Action → List ResolverId
  | .startWatch settings _ notifier hasRuntime =>
    (p.reached settings).toList.filter fun i => (p.startWatch i notifier hasRuntime).2.isOk
  | .openConfig _ c hasRuntime watchable =>
    if c.watch.enabled then (p.openConfig c hasRuntime watchable).2.toOption.toList else []
  | _ => []

/-- The resolvers of all watches that were started in a run, in order. -/
def started (run : List Action) : List ResolverId := collect startedBy {} run

/-- Why a watch cannot be started. Each reason counts only where those before it do not. -/
inductive StartFault (p : Program) (i : ResolverId) (notifier : Source → Notifier)
    (hasRuntime : Bool) : Fault → Prop
  | noSource : p.source? i = none → StartFault p i notifier hasRuntime .noSource
  | noRuntime {source : Source} : p.source? i = some source → hasRuntime = false →
    StartFault p i notifier hasRuntime .noRuntime
  | alreadyWatching {source : Source} {w : WatchId} : p.source? i = some source →
    hasRuntime = true → p.Unfinished i w → StartFault p i notifier hasRuntime .alreadyWatching
  | refused {source : Source} {fault : Fault} : p.source? i = some source →
    hasRuntime = true → (∀ w, ¬ p.Unfinished i w) → p.subscribe (notifier source) = .error fault →
    StartFault p i notifier hasRuntime fault

theorem roster_subscribe {p q : Program} {notifier : Notifier} {hears : Option (List String)}
    (h : p.subscribe notifier = .ok (q, hears)) : q.roster = p.roster := by
  rcases subscribe_eq_ok h with rfl | ⟨path, directory, rfl⟩
  · rfl
  · rfl

theorem roster_startWatch_of_ok {p : Program} {i : ResolverId} {notifier : Source → Notifier}
    {hasRuntime : Bool} (h : (p.startWatch i notifier hasRuntime).2.isOk = true) :
    (p.startWatch i notifier hasRuntime).1.roster = p.roster.launch i := by
  rcases p.startWatch_eq i notifier hasRuntime with
    ⟨fault, hq⟩ | ⟨source, q, hears, -, -, hsubscribe, hq⟩
  · rw [hq] at h
    cases h
  · rw [hq, ← roster_subscribe hsubscribe]
    exact roster_launch q i hears

theorem lt_length_of_startWatch_isOk {p : Program} {i : ResolverId} {notifier : Source → Notifier}
    {hasRuntime : Bool} (h : (p.startWatch i notifier hasRuntime).2.isOk = true) :
    i < p.resolvers.length := by
  rcases p.startWatch_eq i notifier hasRuntime with
    ⟨fault, hq⟩ | ⟨source, q, hears, hsource, -⟩
  · rw [hq] at h
    cases h
  · obtain ⟨r, hr, -⟩ := Option.bind_eq_some_iff.1 hsource
    exact (List.getElem?_eq_some_iff.1 hr).1

theorem startWatch_of_error {p : Program} {i : ResolverId} {notifier : Source → Notifier}
    {hasRuntime : Bool} (h : (p.startWatch i notifier hasRuntime).2.isOk = false) :
    (p.startWatch i notifier hasRuntime).1 = p := by
  rcases p.startWatch_eq i notifier hasRuntime with
    ⟨fault, hq⟩ | ⟨source, q, hears, -, -, hsubscribe, hq⟩
  · rw [hq]
  · rw [hq] at h
    cases h

theorem roster_holdOpened (name : String) (opened : Program × Except Fault ResolverId) :
    (holdOpened name opened).roster = opened.1.roster := by
  obtain ⟨q, answer⟩ := opened
  cases answer <;> rfl

theorem roster_holdNotifier (name : String) (begun : Program × Except Fault WatchId) :
    (holdNotifier name begun).roster = begun.1.roster := by
  obtain ⟨q, answer⟩ := begun
  cases answer <;> rfl

theorem roster_openFile {p q : Program} {path : String} {format : Option Format} {facts : Facts}
    {i : ResolverId} (h : p.openFile path format facts = (q, .ok i)) :
    q.roster = p.roster.addResolver := by
  rcases p.openFile_eq path format facts with ⟨fault, -, hq⟩ | ⟨d, -, hq⟩
  · cases h.symm.trans hq
  · cases h.symm.trans hq
    exact (p.log (.loaded path d.version d.size)).roster_addResolver rfl

/-- A configuration opens a resolver, if it can be loaded, and starts a watch of it, if it says so
and one can be started. -/
theorem roster_openConfig (p : Program) (c : Config) (hasRuntime : Bool)
    (watchable : String → Bool) :
    let started :=
      if c.watch.enabled then (p.openConfig c hasRuntime watchable).2.toOption.toList else []
    ∃ r, (r = p.roster ∨ r = p.roster.addResolver) ∧ (∀ i ∈ started, i < r.states.length) ∧
      (p.openConfig c hasRuntime watchable).1.roster = started.foldl Roster.launch r := by
  have hfailed (fault : Fault) : (if c.watch.enabled then
      (Except.error fault : Except Fault ResolverId).toOption.toList else []) = [] := ite_self _
  have hnew : p.resolvers.length < p.roster.addResolver.states.length := by
    simp [roster, Roster.addResolver]
  have hbootstrap := p.bootstrap_openConfig c hasRuntime watchable
  generalize p.openConfig c hasRuntime watchable = result at hbootstrap
  dsimp only
  cases hbootstrap with
  | noFacts =>
    rw [hfailed]
    exact ⟨_, .inl rfl, by simp, rfl⟩
  | notLoaded =>
    rw [hfailed]
    exact ⟨_, .inl rfl, by simp, rfl⟩
  | unwatched _ hq hdisabled =>
    rw [hdisabled]
    exact ⟨_, .inr rfl, by simp, roster_openFile hq⟩
  | watched _ hq henabled hok =>
    rw [if_pos henabled]
    refine ⟨_, .inr rfl, fun i hi => List.mem_singleton.1 hi ▸ hnew, ?_⟩
    rw [watchFile, roster_startWatch_of_ok (congrArg Except.isOk hok), roster_openFile hq]
    rfl
  | refused _ hq _ herror =>
    rw [hfailed]
    refine ⟨_, .inr rfl, by simp, ?_⟩
    rw [watchFile, startWatch_of_error (congrArg Except.isOk herror), roster_openFile hq]
    rfl

/-- What a step makes of the roster that may start a watch. -/
theorem roster_act_of_mayStart {p : Program} {a : Action} (hstart : a.mayStart = true) :
    ∃ r, (r = p.roster ∨ r = p.roster.addResolver) ∧
      (∀ i ∈ p.startedBy a, i < r.states.length) ∧
      (p.act a).roster = (p.startedBy a).foldl Roster.launch r := by
  cases a with
  | openConfig name c hasRuntime watchable =>
    simp only [act, roster_holdOpened]
    exact p.roster_openConfig c hasRuntime watchable
  | startWatch settings name notifier hasRuntime =>
    refine ⟨_, .inl rfl, ?_⟩
    simp only [act, startedBy]
    cases p.reached settings with
    | none => exact ⟨by simp, rfl⟩
    | some i =>
      rw [Option.elim, roster_holdNotifier]
      cases hok : (p.startWatch i notifier hasRuntime).2.isOk with
      | true =>
        refine ⟨fun j hj => ?_, by simp [roster_startWatch_of_ok hok, hok]⟩
        obtain rfl : j = i := List.mem_singleton.1 (List.mem_filter.1 hj).1
        simpa [roster] using lt_length_of_startWatch_isOk hok
      | false => exact ⟨by simp [hok], by simp [startWatch_of_error hok, hok]⟩
  | _ => cases hstart

theorem startedBy_of_not_mayStart {a : Action} (hstart : ¬ a.mayStart = true) (p : Program) :
    p.startedBy a = [] := by
  unfold startedBy
  split
  · exact absurd rfl hstart
  · exact absurd rfl hstart
  · rfl

/-- Watches come about by starts, and only by them. -/
theorem watched_act (p : Program) (a : Action) :
    (p.act a).roster.watched = p.roster.watched ++ p.startedBy a := by
  by_cases hstart : a.mayStart = true
  · obtain ⟨r, hr, -, hroster⟩ := roster_act_of_mayStart (p := p) hstart
    have hwatched : r.watched = p.roster.watched := by
      rcases hr with rfl | rfl <;> rfl
    rw [hroster, Roster.watched_foldl_launch, hwatched]
  · have hkept : Maintained fun p q => q.roster.watched = p.roster.watched :=
      maintained_roster (P := fun r s => s.watched = r.watched) (fun r => rfl)
        (fun h h' => h'.trans h) (fun r => rfl) (fun r w => r.watched_endTask w)
        fun r i w _ => ((r.stop i w).watched_endTask w).trans (r.watched_stop i w)
    rw [startedBy_of_not_mayStart hstart, List.append_nil]
    refine hkept.act p a (fun h => absurd h hstart) fun _ i => ?_
    rw [roster_requestStop, Roster.watched_requestStop]

theorem watched_ofRun (run : List Action) : (ofRun run).roster.watched = started run := by
  induction run using List.reverseRecOn with
  | nil => rfl
  | append_singleton run a ih =>
    rw [started, collect_append, ofRun, after_append]
    simp only [collect, after_cons, after_nil, List.append_nil]
    exact (watched_act _ a).trans (congrArg (· ++ _) ih)

/-! ## Starts and stops -/

/-- Whether a watch with a notifier could be started if none was running. -/
def CanStart (p : Program) (i : ResolverId) (notifier : Source → Notifier) : Prop :=
  ∃ source, p.source? i = some source ∧ (p.subscribe (notifier source)).isOk = true

section
variable {p : Program} {i : ResolverId} (supervised : p.roster.Supervised) (settled : p.Settled i)
include supervised settled

theorem watchStatus_eq_watching_iff : p.watchStatus i = .watching ↔ ∃ w, p.Unfinished i w := by
  rw [watchStatus_eq_status, supervised.status_eq_watching_iff (settled_roster.2 settled)]
  simp only [unfinished_roster]

theorem startWatch_eq_error_iff {notifier : Source → Notifier} {hasRuntime : Bool} {fault : Fault} :
    (p.startWatch i notifier hasRuntime).2 = .error fault ↔
      StartFault p i notifier hasRuntime fault := by
  have hwatching := watchStatus_eq_watching_iff supervised settled
  constructor
  · intro hfault
    have hstart := p.start_startWatch i notifier hasRuntime
    generalize p.startWatch i notifier hasRuntime = result at hstart hfault
    cases hstart with
    | noSource hsource =>
      cases hfault
      exact .noSource hsource
    | noRuntime hsource hruntime =>
      cases hfault
      exact .noRuntime hsource hruntime
    | alreadyWatching hsource hruntime hstatus =>
      cases hfault
      obtain ⟨w, hw⟩ := hwatching.1 hstatus
      exact .alreadyWatching hsource hruntime hw
    | refused hsource hruntime hstatus hrefused =>
      cases hfault
      exact .refused hsource hruntime (fun w hw => hstatus (hwatching.2 ⟨w, hw⟩)) hrefused
    | started => cases hfault
  · intro hfault
    unfold startWatch
    cases hfault with
    | noSource hsource =>
      rw [source?] at hsource
      simp only [hsource]
    | noRuntime hsource hruntime =>
      rw [source?] at hsource
      simp [hsource, hruntime]
    | alreadyWatching hsource hruntime hw =>
      rw [source?] at hsource
      simp [hsource, hruntime, hwatching.2 ⟨_, hw⟩]
    | refused hsource hruntime hnone hrefused =>
      rw [source?] at hsource
      have hstatus : p.watchStatus i ≠ .watching := fun hstatus =>
        (hwatching.1 hstatus).elim hnone
      simp [hsource, hruntime, hstatus, hrefused]

theorem startWatch_isOk_iff {notifier : Source → Notifier} (can : p.CanStart i notifier) :
    (p.startWatch i notifier true).2.isOk = true ↔ ∀ w, ¬ p.Unfinished i w := by
  have hfault {fault : Fault} : (p.startWatch i notifier true).2 = .error fault ↔
      StartFault p i notifier true fault := startWatch_eq_error_iff supervised settled
  obtain ⟨source, hsource, hsubscribe⟩ := can
  cases hanswer : (p.startWatch i notifier true).2 with
  | ok v =>
    refine iff_of_true rfl fun w hw => ?_
    rw [hfault.2 (.alreadyWatching hsource rfl hw)] at hanswer
    cases hanswer
  | error fault =>
    refine iff_of_false (by simp [Except.isOk, Except.toBool]) fun hnone => ?_
    cases hfault.1 hanswer with
    | noSource hnosource =>
      rw [hsource] at hnosource
      cases hnosource
    | noRuntime _ hruntime => cases hruntime
    | alreadyWatching _ _ hw => exact hnone _ hw
    | refused hsame _ _ hrefused =>
      rw [hsource] at hsame
      cases hsame
      rw [hrefused] at hsubscribe
      cases hsubscribe

end

theorem stopAndLog_of_watching {p : Program} {i : ResolverId} {w : WatchId}
    (hw : p.roster.states[i]? = some (.watching w)) :
    p.stopAndLog i = ((p.requestStop i).1.endTask w).log (.watchStopped i) := by
  rw [roster, List.getElem?_map] at hw
  simp [stopAndLog, stopWatch, requestStop, hw]

theorem stopAndLog_of_not_watching {p : Program} {i : ResolverId}
    (hnone : ∀ w, p.roster.states[i]? ≠ some (.watching w)) : p.stopAndLog i = p := by
  simp only [roster, List.getElem?_map] at hnone
  unfold stopAndLog stopWatch requestStop
  cases hstate : p.resolvers[i]?.map (·.watch) with
  | none => rfl
  | some state =>
    cases state with
    | idle => rfl
    | stopped => rfl
    | watching w => exact absurd hstate (hnone w)

theorem roster_stopAndLog {p : Program} {i : ResolverId} {w : WatchId}
    (hw : p.roster.states[i]? = some (.watching w)) :
    (p.stopAndLog i).roster = (p.roster.stop i w).endTask w := by
  have hrequest : (p.requestStop i).1.roster = p.roster.stop i w := by
    rw [roster_requestStop, Roster.requestStop, hw]
  rw [stopAndLog_of_watching hw, ← hrequest]
  exact roster_endTask _ w

/-- What is heard of depends on the files alone. -/
theorem subscribe_congr {p q : Program} (h : q.files = p.files) (notifier : Notifier) :
    (q.subscribe notifier).map Prod.snd = (p.subscribe notifier).map Prod.snd := by
  cases notifier with
  | controlled => rfl
  | failing fault => rfl
  | file path watchable =>
    simp only [subscribe, watchedNames, h]
    split <;> rfl

/-- A stop takes nothing away that a start needs. -/
theorem CanStart.stopAndLog {p : Program} {i : ResolverId} {notifier : Source → Notifier}
    (can : p.CanStart i notifier) : (p.stopAndLog i).CanStart i notifier := by
  by_cases hwatching : ∃ w, p.roster.states[i]? = some (.watching w)
  · obtain ⟨w, hw⟩ := hwatching
    obtain ⟨source, hsource, hsubscribe⟩ := can
    rw [stopAndLog_of_watching hw]
    rw [roster, List.getElem?_map] at hw
    refine ⟨source, ?_, ?_⟩
    · simp only [source?, log, note, resolvers_endTask, requestStop, hw, modifyWatch,
        modifyResolver, List.getElem?_modify_eq, Option.map_eq_map, Option.bind_map]
      exact hsource
    · have hfiles : (((p.requestStop i).1.endTask w).log (.watchStopped i)).files = p.files := by
        simp only [log, note, files_endTask, requestStop, hw]
        rfl
      have hsame := congrArg Except.isOk (subscribe_congr hfiles (notifier source))
      rw [Except.isOk_map, Except.isOk_map] at hsame
      exact hsame.trans hsubscribe
  · rw [stopAndLog_of_not_watching (not_exists.1 hwatching)]
    exact can

section
variable {p : Program} {i : ResolverId} (supervised : p.roster.Supervised) (settled : p.Settled i)
include supervised settled

theorem unfinished_stopAndLog (w : WatchId) : ¬ (p.stopAndLog i).Unfinished i w := by
  intro hw
  rw [← unfinished_roster] at hw
  have hsettled := settled_roster.2 settled
  by_cases hwatching : ∃ v, p.roster.states[i]? = some (.watching v)
  · obtain ⟨v, hv⟩ := hwatching
    obtain ⟨hi, -⟩ := List.getElem?_eq_some_iff.1 hv
    rw [roster_stopAndLog hv] at hw
    have hstate := ((supervised.stop hv).endTask v).state_of_unfinished (hsettled.stop i v) hw
    simp [Roster.endTask, Roster.stop, hi] at hstate
  · rw [stopAndLog_of_not_watching (not_exists.1 hwatching)] at hw
    exact hwatching ⟨w, supervised.state_of_unfinished hsettled hw⟩

theorem restart_isOk {notifier : Source → Notifier} (can : p.CanStart i notifier) :
    ((p.stopAndLog i).startWatch i notifier true).2.isOk = true := by
  have hsupervised : (p.stopAndLog i).roster.Supervised ∧ (p.stopAndLog i).Settled i := by
    by_cases hwatching : ∃ v, p.roster.states[i]? = some (.watching v)
    · obtain ⟨v, hv⟩ := hwatching
      rw [← settled_roster, roster_stopAndLog hv]
      exact ⟨(supervised.stop hv).endTask v, (settled_roster.2 settled).stop i v⟩
    · rw [stopAndLog_of_not_watching (not_exists.1 hwatching)]
      exact ⟨supervised, settled⟩
  refine (startWatch_isOk_iff hsupervised.1 hsupervised.2 can.stopAndLog).2 fun w => ?_
  exact unfinished_stopAndLog supervised settled w

end

theorem watchStatus_eq_idle_iff (run : List Action) (i : ResolverId) :
    (ofRun run).watchStatus i = .idle ↔ i ∉ started run := by
  rw [watchStatus_eq_status, (supervised_ofRun run).status_eq_idle_iff, watched_ofRun]

/-- The status of a resolver tells which starts have succeeded and whether a task is unfinished. A
start that could succeed does so exactly if no task is, so a watch can always be started again after
a stop. A start that fails leaves everything as it is. -/
theorem watch_lifecycle {run : List Action} {i : ResolverId}
    (completed : (∀ a ∈ run, a.beginsStop = false) ∨ (ofRun run).Settled i) :
    (∀ v w, (ofRun run).Unfinished i v → (ofRun run).Unfinished i w → v = w) ∧
    ((ofRun run).watchStatus i = .idle ↔ i ∉ started run) ∧
    ((ofRun run).watchStatus i = .watching ↔ ∃ w, (ofRun run).Unfinished i w) ∧
    ((ofRun run).watchStatus i = .stopped ↔
      i ∈ started run ∧ ∀ w, ¬ (ofRun run).Unfinished i w) ∧
    (∀ later, (ofRun run).watchStatus i ≠ .idle → (ofRun (run ++ later)).watchStatus i ≠ .idle) ∧
    (∀ notifier, (ofRun run).CanStart i notifier →
      (((ofRun run).startWatch i notifier true).2.isOk = true ↔
        ∀ w, ¬ (ofRun run).Unfinished i w) ∧
      ((∃ w, (ofRun run).Unfinished i w) →
        ((ofRun run).startWatch i notifier true).2 = .error .alreadyWatching) ∧
      (((ofRun run).stopAndLog i).startWatch i notifier true).2.isOk = true) ∧
    ∀ notifier hasRuntime fault,
      (((ofRun run).startWatch i notifier hasRuntime).2 = .error fault ↔
        StartFault (ofRun run) i notifier hasRuntime fault) ∧
      (((ofRun run).startWatch i notifier hasRuntime).2 = .error fault →
        ((ofRun run).startWatch i notifier hasRuntime).1 = ofRun run) := by
  have supervised := supervised_ofRun run
  have settled : (ofRun run).Settled i := by
    rcases completed with completed | settled
    · exact settled_roster.1 (settled_ofRun completed i)
    · exact settled
  have hidle := watchStatus_eq_idle_iff run i
  have hwatching := watchStatus_eq_watching_iff supervised settled
  refine ⟨?unique, hidle, hwatching, ?stopped, ?never_again, ?starts, ?fails⟩
  case unique =>
    intro v w hv hw
    rw [← unfinished_roster] at hv hw
    exact supervised.unfinished_unique (settled_roster.2 settled) hv hw
  case stopped =>
    have hstarted : i ∈ started run ↔ (ofRun run).watchStatus i ≠ .idle := by
      rw [Ne, hidle, not_not]
    rw [hstarted, ← not_exists, ← hwatching]
    cases (ofRun run).watchStatus i <;> simp
  case never_again =>
    intro later hstatus
    rw [Ne, watchStatus_eq_idle_iff, not_not] at hstatus ⊢
    rw [started, collect_append]
    exact List.mem_append_left _ hstatus
  case starts =>
    intro notifier can
    refine ⟨startWatch_isOk_iff supervised settled can, ?_, restart_isOk supervised settled can⟩
    rintro ⟨w, hw⟩
    obtain ⟨source, hsource, -⟩ := can
    exact (startWatch_eq_error_iff supervised settled).2 (.alreadyWatching hsource rfl hw)
  case fails =>
    intro notifier hasRuntime fault
    refine ⟨startWatch_eq_error_iff supervised settled, fun hfault => ?_⟩
    exact startWatch_of_error (by rw [hfault]; rfl)

/-- A watch is started, its events end, and it is started again; then a start is refused, another
comes while it runs, and it is stopped. -/
def restartedAndStopped : List Action :=
  [.writeFile "s.json"
      (some "[\x7b\"name\":\"a\",\"settings\":\x7b\"k\":1\x7d\x7d,\x7b\"end\":true\x7d]"),
    .openFile "s" "s.json" none Facts.none,
    .startWatch (.named "s") "n" (fun _ => .controlled) true, .close 0, .endTask 0,
    .startWatch (.named "s") "m" (fun _ => .refusing) true,
    .startWatch (.named "s") "m" (fun _ => .controlled) true,
    .startWatch (.named "s") "o" (fun _ => .controlled) true,
    .requestStop (.named "s"), .endTask 1]

theorem watch_lifecycle_restarted :
    (ofRun restartedAndStopped).Settled 0 ∧ started restartedAndStopped = [0, 0] ∧
    (ofRun restartedAndStopped).watchStatus 0 = .stopped ∧
    ∀ w, ¬ (ofRun restartedAndStopped).Unfinished 0 w := by
  have settled : (ofRun restartedAndStopped).Settled 0 := by
    unfold Settled
    decide +kernel
  have hstatus : (ofRun restartedAndStopped).watchStatus 0 = .stopped := by decide +kernel
  refine ⟨settled, by decide +kernel, hstatus, ?_⟩
  exact ((watch_lifecycle (.inr settled)).2.2.2.1.1 hstatus).2

end LayeredSettings.Program
