import LayeredSettings.Proofs.Program.Adherence
import LayeredSettings.Proofs.Program.Lifecycle

/-!
What a stop answers, and what it leaves.

A stop gives up the watch that was started last and tells whether there was one to give up. It does
not tell whether its task was still running, so that the answer agrees with the status of the
resolver only if no task has ended by itself.
-/

namespace LayeredSettings

open Program

/-! ## Who holds a watch -/

namespace Roster

/-- A resolver holds a watch that has not been given up. -/
def Watching (r : Roster) (i : ResolverId) : Prop := ∃ w, r.states[i]? = some (.watching w)

variable {r : Roster} {i j : ResolverId}

theorem watching_addResolver : r.addResolver.Watching i ↔ r.Watching i := by
  refine exists_congr fun w => ?_
  rcases Nat.lt_or_ge i r.states.length with old | new
  · rw [addResolver, List.getElem?_append_left old]
  · rw [addResolver, List.getElem?_append_right new, List.getElem?_singleton,
      List.getElem?_eq_none new]
    split <;> simp

theorem watching_stop (w : WatchId) : (r.stop j w).Watching i ↔ r.Watching i ∧ j ≠ i := by
  by_cases same : j = i
  · refine iff_of_false ?_ fun other => other.2 same
    rintro ⟨v, held⟩
    simp [stop, List.getElem?_set, same] at held
  · simp [Watching, stop, same]

theorem watching_requestStop : (r.requestStop j).Watching i ↔ r.Watching i ∧ j ≠ i := by
  unfold requestStop
  split
  · exact watching_stop _
  · rename_i free
    refine ⟨fun watching => ⟨watching, ?_⟩, And.left⟩
    rintro rfl
    obtain ⟨w, held⟩ := watching
    exact free w held

theorem watching_launch (known : j < r.states.length) :
    (r.launch j).Watching i ↔ r.Watching i ∨ i = j := by
  by_cases same : j = i
  · refine iff_of_true ⟨r.tasks.length, ?_⟩ (.inr same.symm)
    rw [launch, ← same, List.getElem?_set_self known]
  · simp [Watching, launch, same, Ne.symm same]

theorem watching_foldl_launch {l : List ResolverId} (known : ∀ j ∈ l, j < r.states.length) :
    (l.foldl launch r).Watching i ↔ r.Watching i ∨ i ∈ l := by
  induction l generalizing r with
  | nil => simp
  | cons j l ih =>
    have length : (r.launch j).states.length = r.states.length := List.length_set
    obtain ⟨first, later⟩ := List.forall_mem_cons.1 known
    rw [List.foldl_cons, ih (length.symm ▸ later), watching_launch first, List.mem_cons, or_assoc]

end Roster

namespace Program

variable {p : Program} {i : ResolverId}

/-- The resolver that a step stops to watch, if there is something to stop. -/
def stoppedBy (p : Program) : Action → Option ResolverId
  | .stopWatch settings => p.reached settings
  | .requestStop settings => p.reached settings
  | _ => none

/-- A start of a resolver has succeeded, after which it was not stopped. -/
def Unstopped (run : List Action) (i : ResolverId) : Prop :=
  ∃ before a after, run = before ++ a :: after ∧ i ∈ (ofRun before).startedBy a ∧
    ∀ done b rest, after = done ++ b :: rest → (ofRun (before ++ a :: done)).stoppedBy b ≠ some i

theorem watching_stopAndLog (j : ResolverId) :
    (p.stopAndLog j).roster.Watching i ↔ p.roster.Watching i ∧ j ≠ i := by
  by_cases held : p.roster.Watching j
  · obtain ⟨w, held⟩ := held
    rw [roster_stopAndLog held]
    exact Roster.watching_stop w
  · rw [stopAndLog_of_not_watching (not_exists.1 held)]
    refine ⟨fun watching => ⟨watching, ?_⟩, And.left⟩
    rintro rfl
    exact held watching

/-- A resolver comes to hold a watch by a start, and ceases to hold it by a stop. -/
theorem watching_act (p : Program) (a : Action) :
    (p.act a).roster.Watching i ↔
      i ∈ p.startedBy a ∨ p.roster.Watching i ∧ p.stoppedBy a ≠ some i := by
  by_cases start : a.mayStart = true
  · obtain ⟨r, same, known, roster⟩ := roster_act_of_mayStart (p := p) start
    have before : r.Watching i ↔ p.roster.Watching i := by
      rcases same with rfl | rfl
      · rfl
      · exact Roster.watching_addResolver
    have goesOn : p.stoppedBy a = none := by
      cases a <;> first | rfl | cases start
    rw [roster, Roster.watching_foldl_launch known, before, goesOn, or_comm]
    simp
  · rw [startedBy_of_not_mayStart start]
    by_cases stop : a.mayStop = true
    · have given {found : Option ResolverId} {f : ResolverId → Program}
          (stops : ∀ j, (f j).roster.Watching i ↔ p.roster.Watching i ∧ j ≠ i) :
          (found.elim p f).roster.Watching i ↔ i ∈ ([] : List ResolverId) ∨
            p.roster.Watching i ∧ found ≠ some i := by
        cases found with
        | none => simp
        | some j => simp [stops]
      cases a with
      | stopWatch settings => exact given watching_stopAndLog
      | requestStop settings =>
        exact given fun j => by rw [roster_requestStop, Roster.watching_requestStop]
      | _ => cases stop
    · have kept : Upheld fun p q => q.roster.Watching i ↔ p.roster.Watching i :=
        upheld_roster (P := fun r s => s.Watching i ↔ r.Watching i) (fun r => .rfl)
          (fun h h' => h'.trans h) (fun r => Roster.watching_addResolver) fun r w => .rfl
      have goesOn : p.stoppedBy a = none := by
        cases a <;> first | rfl | exact absurd rfl stop
      rw [kept.act p a (fun h => absurd h start) fun h => absurd h stop, goesOn]
      simp

theorem unstopped_concat (run : List Action) (a : Action) :
    Unstopped (run ++ [a]) i ↔ i ∈ (ofRun run).startedBy a ∨
      Unstopped run i ∧ (ofRun run).stoppedBy a ≠ some i := by
  constructor
  · rintro ⟨before, b, after, split, started, goesOn⟩
    rcases List.eq_nil_or_concat' after with rfl | ⟨after, c, rfl⟩
    · obtain ⟨rfl, same⟩ := List.append_inj' split rfl
      cases same
      exact .inl started
    · have split : run ++ [a] = (before ++ b :: after) ++ [c] := by
        rw [split, List.append_assoc, List.cons_append]
      obtain ⟨rfl, same⟩ := List.append_inj' split rfl
      cases same
      refine .inr ⟨⟨before, b, after, rfl, started, fun done c rest later => ?_⟩,
        goesOn after _ [] rfl⟩
      exact goesOn done c (rest ++ [a]) (by simp [later])
  · rintro (started | ⟨⟨before, b, after, rfl, started, goesOn⟩, other⟩)
    · exact ⟨run, a, [], rfl, started, by simp⟩
    · refine ⟨before, b, after ++ [a], by simp, started, fun done c rest later => ?_⟩
      rcases List.eq_nil_or_concat' rest with rfl | ⟨rest, d, rfl⟩
      · obtain ⟨rfl, same⟩ := List.append_inj' later rfl
        cases same
        exact other
      · have later : after ++ [a] = (done ++ c :: rest) ++ [d] := by
          rw [later, List.append_assoc, List.cons_append]
        obtain ⟨same, -⟩ := List.append_inj' later rfl
        exact goesOn done c rest same

/-- A resolver holds a watch as long as its last start was not followed by a stop. -/
theorem watching_ofRun (run : List Action) (i : ResolverId) :
    (ofRun run).roster.Watching i ↔ Unstopped run i := by
  induction run using List.reverseRecOn with
  | nil =>
    refine iff_of_false ?_ ?_
    · rintro ⟨w, held⟩
      cases held
    · rintro ⟨before, a, after, split, -⟩
      simp at split
  | append_singleton run a ih =>
    rw [unstopped_concat, ← ih, ofRun, after_append]
    exact watching_act _ a

theorem snd_stopWatch_iff : (p.stopWatch i).2 = true ↔ p.roster.Watching i := by
  unfold stopWatch requestStop
  simp only [Roster.Watching, roster, List.getElem?_map]
  cases p.resolvers[i]?.map Resolver.watch with
  | none => simp
  | some state => cases state <;> simp

/-! ## Tasks that go on -/

/-- The reload task of a watch goes on, and nobody has stopped it. -/
def Active (p : Program) (i : ResolverId) (w : WatchId) : Prop :=
  ∃ watch, p.watches[w]? = some watch ∧ watch.resolver = i ∧ watch.running = true ∧
    watch.stopRequested = false

theorem active_iff {w : WatchId} : p.Active i w ↔ ∃ task, p.roster.tasks[w]? = some task ∧
    task.resolver = i ∧ task.running = true ∧ task.stopRequested = false := by
  simp [Active, roster, Watch.task]

section
variable (supervised : p.roster.Supervised)
include supervised

theorem Active.state {w : WatchId} (active : p.Active i w) :
    p.roster.states[i]? = some (.watching w) := by
  obtain ⟨task, found, rfl, running, unstopped⟩ := active_iff.1 active
  exact supervised.unstopped found running unstopped

theorem watchStatus_eq_watching_iff_active : p.watchStatus i = .watching ↔ ∃ w, p.Active i w := by
  rw [watchStatus_eq_status, Roster.status_eq_watching]
  constructor
  · rintro ⟨w, task, state, found, running⟩
    obtain ⟨own, same, resolver, unstopped⟩ := supervised.current state
    cases found.symm.trans same
    exact ⟨w, active_iff.2 ⟨task, found, resolver, running, unstopped⟩⟩
  · rintro ⟨w, active⟩
    obtain ⟨task, found, -, running, -⟩ := active_iff.1 active
    exact ⟨w, task, active.state supervised, found, running⟩

/-- A stop ends the task that goes on. If another stop has begun, it still waits for its own. -/
theorem unfinished_stopAndLog_iff (w : WatchId) :
    (p.stopAndLog i).Unfinished i w ↔ p.Unfinished i w ∧ ¬ p.Active i w := by
  simp only [← unfinished_roster]
  by_cases held : p.roster.Watching i
  · obtain ⟨v, held⟩ := held
    obtain ⟨own, found, resolver, unstopped⟩ := supervised.current held
    rw [roster_stopAndLog held]
    by_cases same : v = w
    · subst same
      refine iff_of_false ?_ ?_
      · simp [Roster.Unfinished, Roster.endTask, Roster.stop, found]
      · rintro ⟨⟨task, found', -, running⟩, inactive⟩
        cases found.symm.trans found'
        exact inactive (active_iff.2 ⟨own, found, resolver, running, unstopped⟩)
    · have inactive : ¬ p.Active i w := fun active => by
        cases held.symm.trans (active.state supervised)
        exact same rfl
      simp [Roster.Unfinished, Roster.endTask, Roster.stop, same, inactive]
  · rw [stopAndLog_of_not_watching (not_exists.1 held)]
    exact ⟨fun unfinished => ⟨unfinished, fun active => held ⟨w, active.state supervised⟩⟩,
      And.left⟩

end

/-! ## Events of a watch that has ended -/

theorem drained_ofRun (run : List Action) : ∀ watch ∈ (ofRun run).watches, watch.Drained := by
  obtain ⟨t, finished, -, drained⟩ := Terms.ok_after (C := Terms.free) (s := ⟨{}, []⟩)
    (I := fun p => ∀ watch ∈ p.watches, watch.Drained)
    (fun {_ op} _ drained _ => op.drained_effect drained) (Terms.ok_start trivial) nofun run
    fun a _ => Terms.admits_free a
  have finished : t.program = ofRun run := finished
  exact finished ▸ drained

theorem Ended.after {run : List Action} {w : WatchId} (ended : (ofRun run).Ended w)
    (later : List Action) : (ofRun (run ++ later)).Ended w := by
  obtain ⟨s, here, ok, -⟩ := Terms.ok_after (C := .free) (I := fun _ => True)
    (fun _ _ _ => trivial) (Terms.ok_start trivial) trivial run fun a _ => Terms.admits_free a
  have here : s.program = ofRun run := here
  obtain ⟨t, there, -, now⟩ := Terms.ok_after (I := (·.Ended w)) (fun _ ended _ => ended.effect _)
    ok (here ▸ ended) later fun a _ => Terms.admits_free a
  rw [ofRun, after_append]
  exact (here ▸ there) ▸ now

/-- The watch takes no further event, and none is left to be taken. -/
theorem Ended.silent {run : List Action} {w : WatchId} (ended : (ofRun run).Ended w) :
    (∀ e, (ofRun run).send w e = (ofRun run, false)) ∧
      (ofRun run).act (.takeEvent w) = ofRun run := by
  obtain ⟨watch, found, ended⟩ := ended
  have drained := drained_ofRun run watch (List.mem_of_getElem? found) ended
  constructor
  · intro e
    rw [send, found, Option.any_some, Watch.accepts, ended]
    rfl
  · show (ofRun run).handleEvent w = ofRun run
    rw [handleEvent, found]
    simp only [drained]

/-! ## Runs that end with a stop -/

section
variable {run : List Action} {settings : Access} (reached : (ofRun run).reached settings = some i)

theorem watched_stopWatch (run : List Action) (settings : Access) :
    (ofRun (run ++ [.stopWatch settings])).roster.watched = (ofRun run).roster.watched := by
  rw [ofRun, after_append]
  exact (watched_act (ofRun run) (.stopWatch settings)).trans (List.append_nil _)

include reached in
theorem ofRun_stopWatch : ofRun (run ++ [.stopWatch settings]) = (ofRun run).stopAndLog i := by
  rw [ofRun, after_append]
  show ((ofRun run).reached settings).elim _ _ = _
  rw [reached]
  rfl

include reached in
theorem watchStatus_stopWatch : (ofRun (run ++ [.stopWatch settings])).watchStatus i =
    if i ∈ started run then .stopped else .idle := by
  have free : (ofRun (run ++ [.stopWatch settings])).watchStatus i ≠ .watching := by
    have supervised := supervised_ofRun (run ++ [.stopWatch settings])
    rw [Ne, watchStatus_eq_watching_iff_active supervised]
    rintro ⟨w, found⟩
    have held : ((ofRun run).stopAndLog i).roster.Watching i :=
      ofRun_stopWatch reached ▸ ⟨w, found.state supervised⟩
    exact ((watching_stopAndLog i).1 held).2 rfl
  have idle := watchStatus_eq_idle_iff (run ++ [.stopWatch settings]) i
  rw [← watched_ofRun, watched_stopWatch, watched_ofRun] at idle
  split
  · rename_i begun
    cases status : (ofRun (run ++ [.stopWatch settings])).watchStatus i with
    | idle => exact absurd begun (idle.1 status)
    | watching => exact absurd status free
    | stopped => rfl
  · rename_i none
    exact idle.2 none

/-- A watch that a resolver had before the stop and that is not unfinished after it has ended. -/
theorem ended_stopWatch {w : WatchId} {watch : Watch}
    (found : (ofRun run).watches[w]? = some watch) (own : watch.resolver = i)
    (finished : ¬ (ofRun (run ++ [.stopWatch settings])).Unfinished i w) :
    (ofRun (run ++ [.stopWatch settings])).Ended w := by
  have here : (ofRun (run ++ [.stopWatch settings])).roster.watched[w]? = some i := by
    rw [watched_stopWatch, Roster.watched, roster, List.map_map, List.getElem?_map, found]
    exact congrArg some own
  rw [Roster.watched, roster, List.map_map, List.getElem?_map] at here
  obtain ⟨now, found, own⟩ := Option.map_eq_some_iff.1 here
  exact ⟨now, found, Bool.eq_false_iff.2 fun running => finished ⟨now, found, own, running⟩⟩

end

/-- A stop tells whether a start has succeeded that was not followed by a stop. So it tells whether
the resolver was watched, except where the task has ended by itself. Whatever it tells, it leaves no
task but those that other stops still wait for, and no watch whose task has ended takes an event
any more. -/
theorem stop_releases_watch {run : List Action} {settings : Access} {i : ResolverId}
    (reached : (ofRun run).reached settings = some i) :
    let stopped := run ++ [.stopWatch settings]
    (((ofRun run).stopWatch i).2 = true ↔ Unstopped run i) ∧
    ((ofRun run).watchStatus i = .watching ↔ Unstopped run i ∧ ∃ w, (ofRun run).Active i w) ∧
    ((((ofRun run).stopWatch i).2 = true ↔ (ofRun run).watchStatus i = .watching) ↔
      (Unstopped run i → ∃ w, (ofRun run).Active i w)) ∧
    (ofRun stopped).watchStatus i = (if i ∈ started run then .stopped else .idle) ∧
    (∀ w, (ofRun stopped).Unfinished i w ↔
      (ofRun run).Unfinished i w ∧ ¬ (ofRun run).Active i w) ∧
    ((∀ a ∈ run, a.beginsStop = false) → ∀ w, ¬ (ofRun stopped).Unfinished i w) ∧
    ∀ w watch, (ofRun run).watches[w]? = some watch → watch.resolver = i →
      ¬ (ofRun stopped).Unfinished i w → ∀ later,
        (∀ e, (ofRun (stopped ++ later)).send w e = (ofRun (stopped ++ later), false)) ∧
        (ofRun (stopped ++ later)).act (.takeEvent w) = ofRun (stopped ++ later) := by
  intro stopped
  have supervised := supervised_ofRun run
  have answer : ((ofRun run).stopWatch i).2 = true ↔ Unstopped run i :=
    snd_stopWatch_iff.trans (watching_ofRun run i)
  have active : (ofRun run).watchStatus i = .watching ↔ ∃ w, (ofRun run).Active i w :=
    watchStatus_eq_watching_iff_active supervised
  have unstopped (found : ∃ w, (ofRun run).Active i w) : Unstopped run i := by
    obtain ⟨w, found⟩ := found
    exact (watching_ofRun run i).1 ⟨w, found.state supervised⟩
  refine ⟨answer, ?status, ?agree, watchStatus_stopWatch reached, ?unfinished, ?completed, ?silent⟩
  case status => rw [active, and_iff_right_of_imp unstopped]
  case agree =>
    rw [answer, active]
    exact ⟨Iff.mp, fun ends => ⟨ends, unstopped⟩⟩
  case unfinished =>
    intro w
    rw [ofRun_stopWatch reached]
    exact unfinished_stopAndLog_iff supervised w
  case completed =>
    intro completed w
    rw [ofRun_stopWatch reached]
    exact unfinished_stopAndLog supervised (settled_roster.1 (settled_ofRun completed i)) w
  case silent =>
    intro w watch found own finished later
    have ended := ended_stopWatch found own finished
    exact (ended.after later).silent

/-- A watch is started, and its task ends because no more events come. -/
def endedByItself : List Action :=
  [.writeFile "s.json" (some "[\x7b\"version\":1,\"end\":true\x7d]"),
    .openFile "s" "s.json" none Facts.none,
    .startWatch (.named "s") "n" (fun _ => .controlled) true, .close 0, .endTask 0]

theorem stop_releases_watch_ended :
    (ofRun endedByItself).reached (.named "s") = some 0 ∧
    (ofRun endedByItself).watchStatus 0 = .stopped ∧ Unstopped endedByItself 0 ∧
    ((ofRun endedByItself).stopWatch 0).2 = true ∧
    (ofRun (endedByItself ++ [.stopWatch (.named "s")])).watchStatus 0 = .stopped ∧
    ∀ w, ¬ (ofRun (endedByItself ++ [.stopWatch (.named "s")])).Unfinished 0 w := by
  have reached : (ofRun endedByItself).reached (.named "s") = some 0 := by decide +kernel
  have answer : ((ofRun endedByItself).stopWatch 0).2 = true := by decide +kernel
  have begun : 0 ∈ started endedByItself := by decide +kernel
  obtain ⟨tells, -, -, status, -, completed, -⟩ := stop_releases_watch reached
  rw [if_pos begun] at status
  exact ⟨reached, by decide +kernel, tells.1 answer, answer, status, completed (by decide)⟩

/-- A stop says that it stopped a resolver that was not watched any more. -/
theorem not_stop_answers_status : ¬ ∀ (run : List Action) (settings : Access) (i : ResolverId),
    (ofRun run).reached settings = some i →
      (((ofRun run).stopWatch i).2 = true ↔ (ofRun run).watchStatus i = .watching) := by
  intro claimed
  have reached : (ofRun endedByItself).reached (.named "s") = some 0 := by decide +kernel
  have answer : ((ofRun endedByItself).stopWatch 0).2 = true := by decide +kernel
  have status : (ofRun endedByItself).watchStatus 0 = .stopped := by decide +kernel
  cases status.symm.trans ((claimed endedByItself (.named "s") 0 reached).1 answer)

end Program
end LayeredSettings
