import LayeredSettings.Proofs.Program.Conservation

/-!
The rounds of a watch come in the order of its publications, and the account of a whole run.
-/

namespace LayeredSettings.Program

open scoped List

/-- What the steps of a run give, in their order. -/
def collect (f : Program → Action → List Nat) (p : Program) : List Action → List Nat
  | [] => []
  | a :: run => f p a ++ collect f (p.act a) run

theorem collect_append (f : Program → Action → List Nat) (p : Program) (run later : List Action) :
    collect f p (run ++ later) = collect f p run ++ collect f (p.after run) later := by
  induction run generalizing p with
  | nil => rfl
  | cons a run ih => simp only [List.cons_append, collect, ih, after_cons, List.append_assoc]

/-- What a resolver published between two states. -/
def publishedSince (i : ResolverId) (p q : Program) : List Nat :=
  List.range' (p.number i + 1) (q.number i - p.number i)

/-- The rounds of a resolver that ended between two states, in their order. -/
def roundsSince (i : ResolverId) (p q : Program) : List Nat :=
  (q.since p.history.length).filterMap (·.round? i)

/-- What the reload task of a watch publishes in a step. -/
def publishedIn (i : ResolverId) (w : WatchId) (p : Program) : Action → List Nat
  | .takeEvent v => if v = w then publishedSince i p (p.handleEvent v) else []
  | _ => []

/-- The round that the dispatcher of a watch runs in a step. Rounds inside of it end before. -/
def dispatchedIn (i : ResolverId) (w : WatchId) (p : Program) : Action → List Nat
  | .dispatch v => if v = w then (roundsSince i p (p.dispatch v)).getLast?.toList else []
  | _ => []

/-- What waits in the queue of a watch, if there is such a watch. -/
def queueOf (queues : List (ResolverId × List Nat)) (w : WatchId) : List Nat :=
  (queues[w]?.map (·.2)).getD []

theorem queueOf_eq {queues : List (ResolverId × List Nat)} {w : WatchId} {i : ResolverId}
    {numbers : List Nat} (h : queues[w]? = some (i, numbers)) : queueOf queues w = numbers := by
  simp [queueOf, h]

/-- Watches that are started later come behind, with nothing in their queues. -/
theorem queueOf_append_started (queues : List (ResolverId × List Nat)) (started : List ResolverId)
    (w : WatchId) : queueOf (queues ++ started.map (·, [])) w = queueOf queues w := by
  simp only [queueOf, List.getElem?_append]
  by_cases hw : w < queues.length
  · rw [if_pos hw]
  · rw [if_neg hw, List.getElem?_eq_none (Nat.le_of_not_lt hw), List.getElem?_map]
    cases started[w - queues.length]? <;> rfl

theorem queueOf_set_self {queues : List (ResolverId × List Nat)} {w : WatchId}
    {old : ResolverId × List Nat} (hold : queues[w]? = some old) (new : ResolverId × List Nat) :
    queueOf (queues.set w new) w = new.2 := by
  obtain ⟨hw, -⟩ := List.getElem?_eq_some_iff.1 hold
  simp [queueOf, hw]

theorem queueOf_set_ne {queues : List (ResolverId × List Nat)} {v w : WatchId} (hvw : v ≠ w)
    (new : ResolverId × List Nat) : queueOf (queues.set v new) w = queueOf queues w := by
  simp [queueOf, hvw]

/-- A watch stays one of the same resolver. -/
theorem map_fst_set {queues : List (ResolverId × List Nat)} {w : WatchId} {i : ResolverId}
    {old : List Nat} (hold : queues[w]? = some (i, old)) (new : List Nat) :
    (queues.set w (i, new)).map Prod.fst = queues.map Prod.fst := by
  obtain ⟨hw, hget⟩ := List.getElem?_eq_some_iff.1 hold
  have hmap : w < (queues.map Prod.fst).length := by rwa [List.length_map]
  have hfst : (queues.map Prod.fst)[w] = i := by rw [List.getElem_map, hget]
  rw [List.map_set]
  dsimp only
  conv => lhs; rw [← hfst, List.set_getElem_self]

theorem Dispatched.getLast?_roundsSince {w : WatchId} {i : ResolverId} {number : Nat}
    {later : List Nat} {p q : Program} (h : Dispatched w i number later p q) :
    (roundsSince i p q).getLast? = some number := by
  obtain ⟨version, completed, earlier, hsuffix, hhistory⟩ := h.history
  have hlength := hsuffix.length_le
  have htake : q.history.length - p.history.length =
      (earlier.length - p.history.length) + 1 := by
    rw [hhistory, List.length_cons]
    omega
  rw [roundsSince, since, htake, hhistory]
  simp [Occurrence.round?]

theorem publishedIn_eq_nil {p : Program} {a : Action} (h : ∀ w, a ≠ .takeEvent w) (i : ResolverId)
    (w : WatchId) : publishedIn i w p a = [] := by
  unfold publishedIn
  split
  · exact absurd rfl (h _)
  · rfl

theorem dispatchedIn_eq_nil {p : Program} {a : Action} (h : ∀ w, a ≠ .dispatch w) (i : ResolverId)
    (w : WatchId) : dispatchedIn i w p a = [] := by
  unfold dispatchedIn
  split
  · exact absurd rfl (h _)
  · rfl

/-- Watches stay what they are watches of, and new ones come behind. -/
theorem Effect.watched {p q : Program} {a : Action} (h : Effect p a q) :
    p.waiting.map Prod.fst <+: q.waiting.map Prod.fst := by
  cases h with
  | balanced _ _ hq =>
    obtain ⟨started, hwaiting⟩ := hq.waiting
    rw [hwaiting, List.map_append]
    exact List.prefix_append _ _
  | unpublished hq => rw [hq.waiting]
  | enqueued hq => rw [hq.waiting, map_fst_set hq.before]
  | idle w => exact List.prefix_rfl
  | dispatched hq =>
    obtain ⟨started, hwaiting⟩ := hq.waiting
    rw [hwaiting, List.map_append, map_fst_set hq.before]
    exact List.prefix_append _ _
  | abandoned hq =>
    obtain ⟨number, later, hbefore⟩ := hq.before
    rw [hq.waiting, map_fst_set hbefore]

/-- Publications enter the queue of a watch at its end and leave it at its front. -/
theorem queueOf_act {p : Program} {i : ResolverId} (h : Conserved p i)
    (held : i < p.resolvers.length → p.inUse i = true) {w : WatchId}
    (hw : ∀ j ∈ (p.waiting.map Prod.fst)[w]?, j = i) (a : Action) :
    queueOf p.waiting w ++ publishedIn i w p a =
      dispatchedIn i w p a ++ queueOf (p.act a).waiting w := by
  have heffect := effect_act p a
  -- The effects are those of a step to any state, so the state after the step gets a name.
  generalize hq : p.act a = q at heffect
  cases heffect with
  | balanced htake hdispatch heffect =>
    obtain ⟨started, hwaiting⟩ := heffect.waiting
    rw [publishedIn_eq_nil htake, dispatchedIn_eq_nil hdispatch, hwaiting,
      queueOf_append_started, List.append_nil, List.nil_append]
  | @unpublished v q heffect =>
    have hnone : publishedIn i w p (.takeEvent v) = [] := by
      simp [publishedIn, publishedSince, heffect.number, show p.handleEvent v = q from hq]
    rw [hnone, heffect.waiting, List.append_nil]
    rfl
  | @enqueued v j numbers q heffect =>
    by_cases hvw : v = w
    · subst hvw
      obtain rfl : j = i := hw j (by simp [heffect.before])
      have hone : publishedIn j v p (.takeEvent v) = [p.number j + 1] := by
        simp [publishedIn, publishedSince, heffect.number, show p.handleEvent v = q from hq]
      rw [hone, heffect.waiting, queueOf_set_self heffect.before, queueOf_eq heffect.before]
      rfl
    · rw [heffect.waiting, queueOf_set_ne hvw]
      simp [publishedIn, dispatchedIn, hvw]
  | idle v =>
    have hnone : dispatchedIn i w p (.dispatch v) = [] := by
      simp [dispatchedIn, roundsSince, since, show p.dispatch v = p from hq]
    rw [hnone, List.nil_append]
    exact List.append_nil _
  | @dispatched v j number later q heffect =>
    obtain ⟨started, hwaiting⟩ := heffect.waiting
    rw [hwaiting, queueOf_append_started]
    by_cases hvw : v = w
    · subst hvw
      obtain rfl : j = i := hw j (by simp [heffect.before])
      have hone : dispatchedIn j v p (.dispatch v) = [number] := by
        simp [dispatchedIn, show p.dispatch v = q from hq, heffect.getLast?_roundsSince]
      rw [hone, queueOf_set_self heffect.before, queueOf_eq heffect.before]
      exact List.append_nil _
    · rw [queueOf_set_ne hvw]
      simp [publishedIn, dispatchedIn, hvw]
  | @abandoned v j q heffect =>
    obtain ⟨number, later, hbefore⟩ := heffect.before
    by_cases hvw : v = w
    · subst hvw
      obtain rfl : j = i := hw j (by simp [hbefore])
      exact absurd heffect (h.not_abandoned held)
    · rw [heffect.waiting, queueOf_set_ne hvw]
      simp [publishedIn, dispatchedIn, hvw]

/-- Over a whole run, a watch has had its rounds in the order in which it published. -/
theorem collect_publishedIn {i : ResolverId} {run : List Action} (held : Held i run) {w : WatchId}
    (hw : ∀ j ∈ ((ofRun run).waiting.map Prod.fst)[w]?, j = i) :
    collect (publishedIn i w) {} run =
      collect (dispatchedIn i w) {} run ++ queueOf (ofRun run).waiting w := by
  induction run using List.reverseRecOn with
  | nil => rfl
  | append_singleton run a ih =>
    have hact : ofRun (run ++ [a]) = (ofRun run).act a := after_append _ run [a]
    have hbefore : ∀ j ∈ ((ofRun run).waiting.map Prod.fst)[w]?, j = i := by
      intro j hj
      obtain ⟨started, hwatched⟩ := (effect_act (ofRun run) a).watched
      obtain ⟨hlt, -⟩ := List.getElem?_eq_some_iff.1 hj
      rw [hact, ← hwatched, List.getElem?_append_left hlt] at hw
      exact hw j hj
    -- The equation for the last step continues the one for the run before it.
    have hstep := queueOf_act (conserved_ofRun held.before) held.before.inUse hbefore a
    rw [collect_append, collect_append, ih held.before hbefore, hact, List.append_assoc,
      List.append_assoc]
    congr 1
    simp only [collect, List.append_nil]
    exact hstep

/-- A reload that fails, or an event that reports an error. -/
inductive Fails (p : Program) : Action → Prop
  | reload {settings : Access} {i : ResolverId} {fault : Fault} :
    p.reached settings = some i → (p.reload i).2 = .error fault → Fails p (.reload settings)
  | changed {w : WatchId} {watch : Watch} {later : List WatchEvent} {fault : Fault} :
    p.watches[w]? = some watch → watch.events = .changed :: later →
    (p.reloadDocument watch.resolver).2 = .error fault → Fails p (.takeEvent w)
  | reported {w : WatchId} {watch : Watch} {later : List WatchEvent} {message : String} :
    p.watches[w]? = some watch → watch.events = .fault message :: later → Fails p (.takeEvent w)

theorem quiet_reload {p : Program} {i : ResolverId} {fault : Fault}
    (h : (p.reload i).2 = .error fault) : Quiet p (p.reload i).1 := by
  unfold reload reloadWith at h ⊢
  split at h
  · rename_i q fault hq
    obtain rfl := reloadDocument_eq_error hq
    exact Quiet.refl q
  · cases h

/-- Where nothing is published, no round is caused. -/
theorem Fails.quiet {p : Program} {a : Action} (h : Fails p a) : Quiet p (p.act a) := by
  cases h with
  | @reload settings i fault hreached hfault =>
    rw [act, hreached]
    exact quiet_reload hfault
  | @changed w watch later fault hw hevents hfault =>
    have htaken := Quiet.setEvents p w later
    simp only [act, handleEvent, hw, hevents]
    split
    · split
      · rename_i q published hq
        rw [reloadDocument_modifyWatch] at hq
        have hanswer := hfault.symm.trans (Prod.mk.inj hq).2
        cases hanswer
      · rename_i q fault hq
        obtain rfl := reloadDocument_eq_error hq
        exact htaken.trans (Quiet.note rfl _)
    · exact htaken.trans (Quiet.endTask _ w)
  | @reported w watch later message hw hevents =>
    simp only [act, handleEvent, hw, hevents]
    exact (Quiet.setEvents p w later).trans (Quiet.note rfl _)

/-- As long as a handle of a resolver is left, each of its successful reloads has one round, which
has run or waits in a queue; failures have none; and a watch has its rounds in the order in which it
published. -/
theorem one_round_per_reload {i : ResolverId} {run : List Action} (held : Held i run) :
    ((ofRun run).rounds i).length + ((ofRun run).queued i).length = (ofRun run).reloads i ∧
    (ofRun run).rounds i ++ (ofRun run).queued i ~ List.range' 1 ((ofRun run).reloads i) ∧
    (∀ j, ((ofRun run).reloadDocument j).1.reloads i =
      (ofRun run).reloads i + if j = i ∧ ((ofRun run).reloadDocument j).2.isOk then 1 else 0) ∧
    (∀ a, Fails (ofRun run) a → ∀ j,
      ((ofRun run).act a).rounds j = (ofRun run).rounds j ∧
      ((ofRun run).act a).queued j = (ofRun run).queued j ∧
      ((ofRun run).act a).reloads j = (ofRun run).reloads j) ∧
    ∀ w watch, (ofRun run).watches[w]? = some watch → watch.resolver = i →
      collect (publishedIn i w) {} run =
        collect (dispatchedIn i w) {} run ++ watch.published.map (·.number) := by
  have conserved := conserved_ofRun held
  refine ⟨conserved.length, ?_, fun j => reloads_reloadDocument _ j i, ?_, ?_⟩
  · rw [conserved.reloads]
    exact conserved.perm
  · intro a fails j
    have quiet := fails.quiet
    exact ⟨quiet.rounds j, quiet.queued j, quiet.reloads j⟩
  · rintro w watch hw rfl
    have hwaiting := waiting_getElem? hw
    rw [← queueOf_eq hwaiting]
    refine collect_publishedIn held fun j hj => ?_
    rw [List.getElem?_map, hwaiting] at hj
    exact (Option.some.inj hj).symm

/-- Watching is stopped while two publications wait, and a manual reload falls between them. -/
def stoppedBeforeDispatch : List Action :=
  [.writeFile "s.json"
      (some "[\x7b\"name\":\"a\",\"settings\":\x7b\"k\":1\x7d\x7d,\x7b\"end\":true\x7d]"),
    .openFile "s" "s.json" none Facts.none,
    .onUpdate (.named "s") "h" (fun _ => .panic none) false,
    .startWatch (.named "s") "n" (fun _ => .controlled) true,
    .send 0 .changed, .send 0 (.fault "lost"), .send 0 .changed,
    .takeEvent 0, .reload (.named "s"), .takeEvent 0, .takeEvent 0,
    .stopWatch (.named "s"), .dispatch 0]

theorem one_round_per_reload_stopped :
    Held 0 stoppedBeforeDispatch ∧
    (ofRun stoppedBeforeDispatch).rounds 0 = [1, 2] ∧
    (ofRun stoppedBeforeDispatch).queued 0 = [3] ∧
    collect (publishedIn 0 0) {} stoppedBeforeDispatch = [1, 3] ∧
    collect (dispatchedIn 0 0) {} stoppedBeforeDispatch = [1] ∧
    ((ofRun stoppedBeforeDispatch).rounds 0).length +
      ((ofRun stoppedBeforeDispatch).queued 0).length =
        (ofRun stoppedBeforeDispatch).reloads 0 := by
  have held : Held 0 stoppedBeforeDispatch := by decide +kernel
  refine ⟨held, by decide +kernel, by decide +kernel, by decide +kernel, by decide +kernel, ?_⟩
  exact (one_round_per_reload held).1

end LayeredSettings.Program
