import LayeredSettings.Proofs.Program.Steps

/-!
Which tasks reload for which resolvers.

The roster of a program shows of its resolvers and watches what starts and stops of watches are
about. All changes of it are four moves, and these keep it in order.
-/

namespace LayeredSettings

/-- The watch states of resolvers, and the tasks of all watches that were ever started. -/
structure Roster where
  states : List WatchState
  tasks : List Task

namespace Roster

def watched (r : Roster) : List ResolverId := r.tasks.map (·.resolver)

def Unfinished (r : Roster) (i : ResolverId) (w : WatchId) : Prop :=
  ∃ task, r.tasks[w]? = some task ∧ task.resolver = i ∧ task.running = true

def Settled (r : Roster) (i : ResolverId) : Prop :=
  ∀ task ∈ r.tasks, task.resolver = i → task.stopRequested = true → task.running = false

def status (r : Roster) (i : ResolverId) : WatchStatus :=
  match r.states[i]?.getD .idle with
  | .idle => .idle
  | .watching w => if r.tasks[w]?.any (·.running) then .watching else .stopped
  | .stopped => .stopped

def addResolver (r : Roster) : Roster := { r with states := r.states ++ [.idle] }

def endTask (r : Roster) (w : WatchId) : Roster :=
  { r with tasks := r.tasks.modify w fun task => { task with running := false } }

def stop (r : Roster) (i : ResolverId) (w : WatchId) : Roster where
  states := r.states.set i .stopped
  tasks := r.tasks.modify w fun task => { task with stopRequested := true }

def requestStop (r : Roster) (i : ResolverId) : Roster :=
  match r.states[i]? with
  | some (.watching w) => r.stop i w
  | _ => r

def launch (r : Roster) (i : ResolverId) : Roster where
  states := r.states.set i (.watching r.tasks.length)
  tasks := r.tasks ++ [⟨i, true, false⟩]

@[simp] theorem watched_endTask (r : Roster) (w : WatchId) : (r.endTask w).watched = r.watched := by
  apply Program.map_modify_of_eq
  exact fun _ => rfl

@[simp] theorem watched_stop (r : Roster) (i : ResolverId) (w : WatchId) :
    (r.stop i w).watched = r.watched := by
  apply Program.map_modify_of_eq
  exact fun _ => rfl

@[simp] theorem watched_requestStop (r : Roster) (i : ResolverId) :
    (r.requestStop i).watched = r.watched := by
  unfold requestStop
  split
  · exact watched_stop r i _
  · rfl

@[simp] theorem watched_launch (r : Roster) (i : ResolverId) :
    (r.launch i).watched = r.watched ++ [i] := by
  simp [launch, watched]

theorem watched_foldl_launch (r : Roster) (l : List ResolverId) :
    (l.foldl launch r).watched = r.watched ++ l := by
  induction l generalizing r with
  | nil => exact (List.append_nil _).symm
  | cons i l ih =>
    rw [List.foldl_cons, ih, watched_launch, List.append_assoc, List.singleton_append]

theorem mem_watched {r : Roster} {w : WatchId} {task : Task} (hw : r.tasks[w]? = some task) :
    task.resolver ∈ r.watched :=
  List.mem_map_of_mem (List.mem_of_getElem? hw)

theorem status_eq_watching {r : Roster} {i : ResolverId} :
    r.status i = .watching ↔
      ∃ w task, r.states[i]? = some (.watching w) ∧ r.tasks[w]? = some task ∧
        task.running = true := by
  unfold status
  cases r.states[i]? with
  | none => simp
  | some state =>
    cases state with
    | idle => simp
    | stopped => simp
    | watching w => cases htask : r.tasks[w]? <;> simp [htask]

theorem status_eq_idle {r : Roster} {i : ResolverId} :
    r.status i = .idle ↔ r.states[i]?.getD .idle = .idle := by
  unfold status
  split
  · simp [*]
  · split <;> simp [*]
  · simp [*]

namespace Settled

variable {r : Roster} {i : ResolverId} (h : r.Settled i)
include h

theorem endTask (w : WatchId) : (r.endTask w).Settled i := by
  intro task member hresolver hstop
  obtain ⟨v, hv⟩ := List.mem_iff_getElem?.1 member
  simp only [Roster.endTask, List.getElem?_modify] at hv
  obtain ⟨old, hold, rfl⟩ := Option.map_eq_some_iff.1 hv
  by_cases hwv : w = v
  · simp [hwv]
  · simp only [hwv, if_false] at hresolver hstop ⊢
    exact h old (List.mem_of_getElem? hold) hresolver hstop

theorem stop (j : ResolverId) (w : WatchId) : ((r.stop j w).endTask w).Settled i := by
  intro task member hresolver hstop
  obtain ⟨v, hv⟩ := List.mem_iff_getElem?.1 member
  simp only [Roster.endTask, Roster.stop, List.getElem?_modify] at hv
  obtain ⟨told, htold, rfl⟩ := Option.map_eq_some_iff.1 hv
  by_cases hwv : w = v
  · simp [hwv]
  · simp only [hwv, if_false] at hresolver hstop ⊢
    obtain ⟨old, hold, rfl⟩ := Option.map_eq_some_iff.1 htold
    simp only [hwv, if_false] at hresolver hstop ⊢
    exact h old (List.mem_of_getElem? hold) hresolver hstop

theorem launch (j : ResolverId) : (r.launch j).Settled i := by
  intro task member hresolver hstop
  rcases List.mem_append.1 member with member | member
  · exact h task member hresolver hstop
  · obtain rfl := List.mem_singleton.1 member
    cases hstop

end Settled

/-- Each resolver knows its task, and a task that nobody stops is the one that its resolver knows.
Only a resolver that never had a task is idle. -/
structure Supervised (r : Roster) : Prop where
  current : ∀ {i : ResolverId} {w : WatchId}, r.states[i]? = some (.watching w) →
    ∃ task, r.tasks[w]? = some task ∧ task.resolver = i ∧ task.stopRequested = false
  unstopped : ∀ {w : WatchId} {task : Task}, r.tasks[w]? = some task → task.running = true →
    task.stopRequested = false → r.states[task.resolver]? = some (.watching w)
  idle : ∀ {i : ResolverId}, r.states[i]? = some .idle → i ∉ r.watched
  stopped : ∀ {i : ResolverId}, r.states[i]? = some .stopped → i ∈ r.watched
  known : ∀ {i : ResolverId}, i ∈ r.watched → i < r.states.length

namespace Supervised

variable {r : Roster} (h : Supervised r)
include h

theorem mem_watched_of_current {i : ResolverId} {w : WatchId}
    (hi : r.states[i]? = some (.watching w)) : i ∈ r.watched := by
  obtain ⟨task, htask, rfl, -⟩ := h.current hi
  exact mem_watched htask

theorem addResolver : Supervised r.addResolver := by
  have before {i : ResolverId} (hi : i ∈ r.watched) : r.addResolver.states[i]? = r.states[i]? :=
    List.getElem?_append_left (h.known hi)
  have after {i : ResolverId} {state : WatchState} (hi : r.addResolver.states[i]? = some state) :
      r.states[i]? = some state ∨ i ∉ r.watched ∧ state = .idle := by
    by_cases known : i < r.states.length
    · exact .inl ((List.getElem?_append_left known).symm.trans hi)
    · rw [Roster.addResolver, List.getElem?_append_right (Nat.le_of_not_lt known)] at hi
      have hidle := List.mem_singleton.1 (List.mem_of_getElem? hi)
      exact .inr ⟨fun member => known (h.known member), hidle⟩
  constructor
  case current =>
    intro i w hi
    rcases after hi with hi | ⟨-, hi⟩
    · exact h.current hi
    · cases hi
  case unstopped =>
    intro w task hw hrunning hstop
    exact (before (mem_watched hw)).trans (h.unstopped hw hrunning hstop)
  case idle =>
    intro i hi
    rcases after hi with hi | ⟨hi, -⟩
    · exact h.idle hi
    · exact hi
  case stopped =>
    intro i hi
    rcases after hi with hi | ⟨-, hi⟩
    · exact h.stopped hi
    · cases hi
  case known =>
    intro i hi
    rw [Roster.addResolver, List.length_append]
    exact Nat.lt_add_right _ (h.known hi)

theorem endTask (w : WatchId) : Supervised (r.endTask w) := by
  constructor
  case current =>
    intro i v hi
    obtain ⟨task, htask, hresolver, hstop⟩ := h.current hi
    by_cases hwv : w = v
    · exact ⟨{ task with running := false }, by simp [Roster.endTask, hwv, htask], hresolver, hstop⟩
    · exact ⟨task, by simp [Roster.endTask, hwv, htask], hresolver, hstop⟩
  case unstopped =>
    intro v task hv hrunning hstop
    simp only [Roster.endTask, List.getElem?_modify] at hv
    by_cases hwv : w = v
    · simp only [hwv, if_true] at hv
      obtain ⟨old, -, rfl⟩ := Option.map_eq_some_iff.1 hv
      cases hrunning
    · simp only [hwv, if_false, Option.map_eq_map, Option.map_id'] at hv
      exact h.unstopped hv hrunning hstop
  case idle =>
    intro i hi
    rw [watched_endTask]
    exact h.idle hi
  case stopped =>
    intro i hi
    rw [watched_endTask]
    exact h.stopped hi
  case known =>
    intro i hi
    rw [watched_endTask] at hi
    exact h.known hi

theorem stop {i : ResolverId} {w : WatchId} (hi : r.states[i]? = some (.watching w)) :
    Supervised (r.stop i w) := by
  obtain ⟨own, hown, hresolver, -⟩ := h.current hi
  obtain ⟨hlt, -⟩ := List.getElem?_eq_some_iff.1 hi
  constructor
  case current =>
    intro j v hj
    by_cases hij : i = j
    · simp [Roster.stop, hij, hij ▸ hlt] at hj
    · simp only [Roster.stop, List.getElem?_set_ne hij] at hj
      obtain ⟨task, htask, htaskj, hstop⟩ := h.current hj
      have hwv : w ≠ v := by
        rintro rfl
        rw [hown] at htask
        obtain rfl := Option.some.inj htask
        exact hij (hresolver.symm.trans htaskj)
      exact ⟨task, by simp [Roster.stop, hwv, htask], htaskj, hstop⟩
  case unstopped =>
    intro v task hv hrunning hstop
    simp only [Roster.stop, List.getElem?_modify] at hv
    by_cases hwv : w = v
    · simp only [hwv, if_true] at hv
      obtain ⟨old, -, rfl⟩ := Option.map_eq_some_iff.1 hv
      cases hstop
    · simp only [hwv, if_false, Option.map_eq_map, Option.map_id'] at hv
      have hstate := h.unstopped hv hrunning hstop
      have hne : i ≠ task.resolver := by
        rintro rfl
        rw [hi] at hstate
        cases hstate
        exact hwv rfl
      exact (List.getElem?_set_ne hne).trans hstate
  case idle =>
    intro j hj
    rw [watched_stop]
    by_cases hij : i = j
    · simp [Roster.stop, hij, hij ▸ hlt] at hj
    · exact h.idle ((List.getElem?_set_ne hij).symm.trans hj)
  case stopped =>
    intro j hj
    rw [watched_stop]
    by_cases hij : i = j
    · exact hij ▸ h.mem_watched_of_current hi
    · exact h.stopped ((List.getElem?_set_ne hij).symm.trans hj)
  case known =>
    intro j hj
    rw [watched_stop] at hj
    rw [Roster.stop, List.length_set]
    exact h.known hj

theorem requestStop (i : ResolverId) : Supervised (r.requestStop i) := by
  unfold Roster.requestStop
  split
  · rename_i w hi
    exact h.stop hi
  · exact h

theorem launch {i : ResolverId} (hi : i < r.states.length) (free : r.status i ≠ .watching) :
    Supervised (r.launch i) := by
  constructor
  case current =>
    intro j w hj
    by_cases hij : i = j
    · subst hij
      simp only [Roster.launch, List.getElem?_set_self hi] at hj
      cases hj
      exact ⟨⟨i, true, false⟩, by simp [Roster.launch], rfl, rfl⟩
    · simp only [Roster.launch, List.getElem?_set_ne hij] at hj
      obtain ⟨task, htask, hresolver, hstop⟩ := h.current hj
      obtain ⟨hlt, -⟩ := List.getElem?_eq_some_iff.1 htask
      exact ⟨task, (List.getElem?_append_left hlt).trans htask, hresolver, hstop⟩
  case unstopped =>
    intro w task hw hrunning hstop
    rcases Nat.lt_or_ge w r.tasks.length with hlt | hge
    · simp only [Roster.launch, List.getElem?_append_left hlt] at hw
      have hstate := h.unstopped hw hrunning hstop
      have hne : i ≠ task.resolver := by
        rintro rfl
        exact free (status_eq_watching.2 ⟨w, task, hstate, hw, hrunning⟩)
      exact (List.getElem?_set_ne hne).trans hstate
    · simp only [Roster.launch, List.getElem?_append_right hge, List.getElem?_singleton] at hw
      split at hw
      · rename_i hzero
        cases hw
        have hlast : w = r.tasks.length := Nat.le_antisymm (Nat.le_of_sub_eq_zero hzero) hge
        rw [hlast]
        exact List.getElem?_set_self hi
      · cases hw
  case idle =>
    intro j hj
    by_cases hij : i = j
    · subst hij
      simp [Roster.launch, hi] at hj
    · have hold : j ∉ r.watched := h.idle ((List.getElem?_set_ne hij).symm.trans hj)
      simp [hold, Ne.symm hij]
  case stopped =>
    intro j hj
    by_cases hij : i = j
    · simp [hij]
    · have hold : j ∈ r.watched := h.stopped ((List.getElem?_set_ne hij).symm.trans hj)
      simp [hold]
  case known =>
    intro j hj
    rw [watched_launch, List.mem_append, List.mem_singleton] at hj
    rw [Roster.launch, List.length_set]
    rcases hj with hj | rfl
    · exact h.known hj
    · exact hi

/-! ## What the status tells -/

theorem status_eq_idle_iff {i : ResolverId} : r.status i = .idle ↔ i ∉ r.watched := by
  rw [status_eq_idle]
  constructor
  · intro hidle member
    have hstate : r.states[i]? = some .idle := by
      rw [List.getElem?_eq_getElem (h.known member)] at hidle ⊢
      exact congrArg some hidle
    exact h.idle hstate member
  · intro hnot
    cases hi : r.states[i]? with
    | none => rfl
    | some state =>
      cases state with
      | idle => rfl
      | watching w => exact absurd (h.mem_watched_of_current hi) hnot
      | stopped => exact absurd (h.stopped hi) hnot

section
variable {i : ResolverId} (settled : r.Settled i)
include settled

/-- An unfinished task is the one that its resolver knows. -/
theorem state_of_unfinished {w : WatchId} (hw : r.Unfinished i w) :
    r.states[i]? = some (.watching w) := by
  obtain ⟨task, htask, rfl, hrunning⟩ := hw
  have hstop : task.stopRequested = false := by
    by_contra hstop
    have hended := settled task (List.mem_of_getElem? htask) rfl (Bool.not_eq_false _ ▸ hstop)
    exact Bool.false_ne_true (hended.symm.trans hrunning)
  exact h.unstopped htask hrunning hstop

theorem unfinished_unique {v w : WatchId} (hv : r.Unfinished i v) (hw : r.Unfinished i w) :
    v = w := by
  have hstate := (h.state_of_unfinished settled hv).symm.trans (h.state_of_unfinished settled hw)
  cases hstate
  rfl

theorem status_eq_watching_iff : r.status i = .watching ↔ ∃ w, r.Unfinished i w := by
  rw [status_eq_watching]
  constructor
  · rintro ⟨w, task, hstate, htask, hrunning⟩
    obtain ⟨own, hown, hresolver, -⟩ := h.current hstate
    rw [htask] at hown
    obtain rfl := Option.some.inj hown
    exact ⟨w, task, htask, hresolver, hrunning⟩
  · rintro ⟨w, hw⟩
    have hstate := h.state_of_unfinished settled hw
    obtain ⟨task, htask, -, hrunning⟩ := hw
    exact ⟨w, task, hstate, htask, hrunning⟩

end

end Supervised
end Roster

namespace Program

def roster (p : Program) : Roster where
  states := p.resolvers.map (·.watch)
  tasks := p.watches.map Watch.task

theorem isRunning_eq_any (p : Program) (w : WatchId) :
    p.isRunning w = p.roster.tasks[w]?.any (·.running) := by
  rw [isRunning, roster, List.getElem?_map, Option.any_map]
  rfl

theorem watchStatus_eq_status (p : Program) (i : ResolverId) :
    p.watchStatus i = p.roster.status i := by
  have hstate : p.roster.states[i]? = p.resolvers[i]?.map Resolver.watch := List.getElem?_map ..
  unfold watchStatus Roster.status
  rw [hstate]
  cases (p.resolvers[i]?.map Resolver.watch).getD .idle with
  | idle => rfl
  | watching w =>
    dsimp only
    rw [isRunning_eq_any]
  | stopped => rfl

/-! ## Changes of a program as moves -/

theorem roster_modifyResolver (p : Program) (i : ResolverId) {f : Resolver → Resolver}
    (hf : ∀ r, (f r).watch = r.watch) : (p.modifyResolver i f).roster = p.roster := by
  simp only [roster, modifyResolver, map_modify_of_eq hf]

theorem roster_modifyRegistry (p : Program) (owner : Owner) (f : Registry → Registry) :
    (p.modifyRegistry owner f).roster = p.roster := by
  cases owner with
  | resolver i => exact p.roster_modifyResolver i fun _ => rfl
  | registry i => rfl

theorem roster_register (p : Program) (owner : Owner) (callback : Callback) :
    (p.register owner callback).1.roster = p.roster :=
  p.roster_modifyRegistry owner _

theorem roster_cancel (p : Program) (owner : Owner) (handle : Nat) :
    (p.cancel owner handle).roster = p.roster :=
  p.roster_modifyRegistry owner _

theorem roster_publish (p : Program) (i : ResolverId) (d : Document) :
    (p.publish i d).roster = p.roster := by
  unfold publish
  split
  · exact p.roster_modifyResolver i fun _ => rfl
  · rfl

theorem roster_addResolver (p : Program) {r : Resolver} (hr : r.watch = .idle) :
    (p.addResolver r).1.roster = p.roster.addResolver := by
  simp [roster, addResolver, Roster.addResolver, hr]

theorem roster_launch (p : Program) (i : ResolverId) (hears : Option (List String)) :
    (p.launch i hears).roster = p.roster.launch i := by
  have hstates : (p.resolvers.modify i fun r => { r with watch := .watching p.watches.length }).map
      (·.watch) = (p.resolvers.map (·.watch)).set i (.watching p.watches.length) := by
    rw [List.set_eq_modify]
    apply map_modify
    exact fun _ => rfl
  simp [roster, launch, modifyResolver, Roster.launch, Watch.task, hstates]

theorem roster_endTask (p : Program) (w : WatchId) : (p.endTask w).roster = p.roster.endTask w := by
  have htasks : (p.watches.modify w Watch.endTask).map Watch.task =
      (p.watches.map Watch.task).modify w fun task => { task with running := false } := by
    apply map_modify
    exact fun _ => rfl
  unfold endTask
  split
  · rename_i watch hw
    split
    · simp only [roster, log, note, modifyWatch, Roster.endTask, htasks]
    · -- A task that has ended before is left as it is.
      rename_i hended
      rw [Roster.endTask, modify_eq_self_of]
      intro task htask
      rw [roster, List.getElem?_map, hw] at htask
      obtain rfl := Option.some.inj htask
      simp [Watch.task, hended]
  · rename_i hw
    rw [Roster.endTask, modify_eq_self_of]
    intro task htask
    rw [roster, List.getElem?_map, hw] at htask
    cases htask

theorem roster_requestStop (p : Program) (i : ResolverId) :
    (p.requestStop i).1.roster = p.roster.requestStop i := by
  unfold requestStop Roster.requestStop
  simp only [roster, List.getElem?_map]
  cases hi : p.resolvers[i]?.map (·.watch) with
  | none => rfl
  | some state =>
    cases state with
    | idle => rfl
    | stopped => rfl
    | watching w =>
      simp only [modifyWatch, modifyResolver, Roster.stop, List.set_eq_modify]
      congr 1
      · apply map_modify
        exact fun _ => rfl
      · apply map_modify
        exact fun _ => rfl

theorem indifferent_roster {P : Roster → Roster → Prop} (refl : ∀ r, P r r)
    (trans : ∀ {r s t}, P r s → P s t → P r t) :
    Indifferent fun p q => P p.roster q.roster where
  refl p := refl p.roster
  trans := trans
  record p text := refl p.roster
  panic p handle message := refl p.roster
  mark p m := refl p.roster
  enter p c m := refl p.roster
  register p owner callback := by
    rw [roster_register]
    exact refl p.roster
  cancel p owner handle := by
    rw [roster_cancel]
    exact refl p.roster
  rebind p change := by
    rw [p.rebind_eq change]
    exact refl p.roster
  reload {p q r i published} completed hq hr := by
    obtain ⟨r, source, -, -, -, -, rfl⟩ := reloadDocument_eq_ok hq
    rw [roster_publish] at hr
    exact hr

/-- Whatever moves keep, steps keep that neither start nor stop a watch. -/
theorem upheld_roster {P : Roster → Roster → Prop} (refl : ∀ r, P r r)
    (trans : ∀ {r s t}, P r s → P s t → P r t) (addResolver : ∀ r : Roster, P r r.addResolver)
    (endTask : ∀ (r : Roster) w, P r (r.endTask w)) :
    Upheld fun p q => P p.roster q.roster where
  refl p := refl p.roster
  trans := trans
  note p _ _ := refl p.roster
  changeFiles p files := refl p.roster
  refer _ := refl _
  addRegistry p := refl p.roster
  addResolver p r hr _ := by
    rw [roster_addResolver p hr]
    exact addResolver p.roster
  register := (indifferent_roster refl trans).respected.register
  atOnce := (indifferent_roster refl trans).respected.atOnce
  cancel := (indifferent_roster refl trans).cancel
  round := (indifferent_roster refl trans).round
  announce _ _ called := trans ((indifferent_roster refl trans).round called) (refl _)
  publish p i d := by
    rw [roster_publish]
    exact refl p.roster
  tend htasks := by
    simp only [roster, htasks]
    exact refl _
  endTask p w := by
    rw [roster_endTask]
    exact endTask p.roster w

/-- Whatever moves keep, steps keep. -/
theorem maintained_roster {P : Roster → Roster → Prop} (refl : ∀ r, P r r)
    (trans : ∀ {r s t}, P r s → P s t → P r t) (addResolver : ∀ r : Roster, P r r.addResolver)
    (endTask : ∀ (r : Roster) w, P r (r.endTask w))
    (stop : ∀ (r : Roster) i w, r.states[i]? = some (.watching w) → P r ((r.stop i w).endTask w)) :
    Maintained fun p q => P p.roster q.roster where
  toUpheld := upheld_roster refl trans addResolver endTask
  stop {p i w} hw := by
    have hstate : p.roster.states[i]? = some (.watching w) := by
      unfold Program.requestStop at hw
      split at hw
      · rename_i v hv
        cases hw
        rw [roster, List.getElem?_map, hv]
      · cases hw
    rw [roster_endTask, roster_requestStop, Roster.requestStop, hstate]
    exact stop p.roster i w hstate

/-- In every program that a run reaches, tasks and resolvers know of each other. -/
theorem supervised_ofRun (run : List Action) : (ofRun run).roster.Supervised := by
  have hkept : Maintained fun p q => p.roster.Supervised → q.roster.Supervised :=
    maintained_roster (P := fun r s => r.Supervised → s.Supervised) (fun r h => h)
      (fun h h' supervised => h' (h supervised)) (fun r supervised => supervised.addResolver)
      (fun r w supervised => supervised.endTask w)
      (fun r i w hi supervised => (supervised.stop hi).endTask w)
  have hstart : ({} : Program).roster.Supervised := by
    constructor <;> simp [roster, Roster.watched]
  refine hkept.after (fun q i hears hstatus hi supervised => ?_) run
    (.inr fun q i supervised => ?_) {} hstart
  · rw [watchStatus_eq_status] at hstatus
    rw [roster_launch]
    exact supervised.launch (by simpa [roster] using hi) hstatus
  · rw [roster_requestStop]
    exact supervised.requestStop i

/-- A run in which every stop is run to its end leaves no task that is yet to stop. -/
theorem settled_ofRun {run : List Action} (completed : ∀ a ∈ run, a.beginsStop = false)
    (i : ResolverId) : (ofRun run).roster.Settled i := by
  have hkept : Maintained fun p q => p.roster.Settled i → q.roster.Settled i := by
    refine maintained_roster (P := fun r s => r.Settled i → s.Settled i) (fun r h => h)
      (fun h h' settled => h' (h settled)) (fun r settled => settled)
      (fun r w settled => settled.endTask w) (fun r j w _ settled => settled.stop j w)
  have hstart : ({} : Program).roster.Settled i := by simp [roster, Roster.Settled]
  refine hkept.after (fun q j hears _ _ settled => ?_) run (.inl completed) {} hstart
  rw [roster_launch]
  exact settled.launch j

end Program
end LayeredSettings
