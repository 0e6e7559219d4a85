import LayeredSettings.Proofs.Program.WholeRounds

/-!
Registries of callbacks over whole runs.

Handles count registrations. A callback runs in the rounds that begin after its registration and
before its cancellation, in each of them once, and once more if it is called at once.
-/

namespace LayeredSettings

/-- What is live after more marks was live before them, if it was registered by then. -/
theorem LiveIn.of_append {marks new : List Mark} {owner : Owner} {handle : Nat} {c : CallbackId}
    (live : LiveIn (marks ++ new) owner handle c)
    (hunique : (((marks ++ new).filterMap (Mark.registered? owner)).map Prod.fst).Nodup)
    (hregistered : handle ∈ (marks.filterMap (Mark.registered? owner)).map Prod.fst) :
    LiveIn marks owner handle c := by
  obtain ⟨before, after, heq, hnot⟩ := live
  -- The registration is not among the new marks, since a handle is registered once only.
  have hnew : .registered owner handle c ∉ new := by
    intro member
    rw [List.filterMap_append, List.map_append] at hunique
    have hslot : (handle, c) ∈ new.filterMap (Mark.registered? owner) :=
      List.mem_filterMap.2 ⟨_, member, by simp [Mark.registered?]⟩
    have hagain := List.mem_map_of_mem (f := Prod.fst) hslot
    exact (List.nodup_append.1 hunique).2.2 handle hregistered handle hagain rfl
  rcases List.append_eq_append_iff.1 heq with ⟨between, -, hnewEq⟩ | ⟨between, hmarks, hafter⟩
  · exact absurd (hnewEq ▸ by simp) hnew
  · cases between with
    | nil =>
      rw [List.nil_append] at hafter
      exact absurd (hafter ▸ List.mem_cons_self ..) hnew
    | cons m between =>
      obtain ⟨rfl, rfl⟩ := List.cons.inj hafter
      exact ⟨before, between, hmarks, fun member => hnot (List.mem_append_left _ member)⟩

namespace Program

/-- A cancellation empties one slot and changes nothing else; without such a slot it is only
noted. -/
structure OnlyCancels (p : Program) (owner : Owner) (handle : Nat) : Prop where
  self : ((p.cancel owner handle).registry owner).slots[handle]? =
    (p.registry owner).slots[handle]?.map fun _ => none
  others : ∀ other k, (other, k) ≠ (owner, handle) →
    ((p.cancel owner handle).registry other).slots[k]? = (p.registry other).slots[k]?
  unknown : (p.registry owner).size ≤ handle →
    p.cancel owner handle = p.mark (.cancelled owner handle)

theorem cancel_of_size_le {p : Program} {owner : Owner} {handle : Nat}
    (h : (p.registry owner).size ≤ handle) :
    p.cancel owner handle = p.mark (.cancelled owner handle) := by
  have hslots : ∀ r : Registry, r.size ≤ handle → r.cancel handle = r := fun r hr => by
    rw [Registry.cancel, List.set_eq_of_length_le hr]
  have hsame : p.modifyRegistry owner (·.cancel handle) = p := by
    cases owner with
    | resolver i =>
      rw [modifyRegistry, modifyResolver, modify_eq_self_of]
      intro r hr
      have hsize : r.registry.size ≤ handle := by simpa [registry, hr] using h
      rw [hslots _ hsize]
    | registry i =>
      rw [modifyRegistry, modify_eq_self_of]
      intro r hr
      have hsize : r.size ≤ handle := by simpa [registry, hr] using h
      exact hslots r hsize
  rw [cancel, hsame]

theorem onlyCancels (p : Program) (owner : Owner) (handle : Nat) : OnlyCancels p owner handle := by
  constructor
  case self =>
    rw [registry_cancel, if_pos rfl, Registry.cancel, List.getElem?_set_self']
    rfl
  case others =>
    intro other k hne
    rw [registry_cancel]
    split
    · rename_i hsame
      subst hsame
      have hk : handle ≠ k := fun hk => hne (hk ▸ rfl)
      exact List.getElem?_set_ne hk
    · rfl
  case unknown => exact cancel_of_size_le

/-! ## What goes on from a state -/

/-- Callbacks and marks are only added, and what was registered before is not called at once. -/
structure Onward (p q : Program) : Prop where
  callbacks : p.callbacks.length ≤ q.callbacks.length
  added : ∃ new, q.trace = p.trace ++ new ∧ ∀ c, .calledAtOnce c ∈ new → p.callbacks.length ≤ c

namespace Onward

theorem of_unmarked {p q : Program} (h : Unmarked p q) : Onward p q where
  callbacks := Nat.le_of_eq (congrArg List.length h.callbacks).symm
  added := by
    have htrace : q.trace = p.trace := congrArg List.reverse h.journal
    exact ⟨[], by rw [htrace, List.append_nil], by simp⟩

theorem trans {p q r : Program} (h : Onward p q) (h' : Onward q r) : Onward p r where
  callbacks := Nat.le_trans h.callbacks h'.callbacks
  added := by
    obtain ⟨new, hq, hnew⟩ := h.added
    obtain ⟨new', hr, hnew'⟩ := h'.added
    refine ⟨new ++ new', by rw [hr, hq, List.append_assoc], fun c member => ?_⟩
    rcases List.mem_append.1 member with member | member
    · exact hnew c member
    · exact Nat.le_trans h.callbacks (hnew' c member)

theorem of_concat {p q : Program} {m : Mark} (hcallbacks : p.callbacks.length ≤ q.callbacks.length)
    (htrace : q.trace = p.trace ++ [m]) (hm : ∀ c, m = .calledAtOnce c → p.callbacks.length ≤ c) :
    Onward p q where
  callbacks := hcallbacks
  added := ⟨[m], htrace, fun c member => hm c (List.mem_singleton.1 member).symm⟩

theorem mark (p : Program) {m : Mark} (hm : ∀ c, m ≠ .calledAtOnce c) : Onward p (p.mark m) :=
  of_concat (Nat.le_refl _) (p.trace_mark m) fun c h => absurd h (hm c)

theorem enter (p : Program) (c : CallbackId) {m : Mark}
    (hm : ∀ d, m = .calledAtOnce d → p.callbacks.length ≤ d) : Onward p (p.enter c m) :=
  of_concat (by simp [Program.enter, Program.mark]) (p.trace_enter c m) hm

theorem register (p : Program) (owner : Owner) (callback : Callback) :
    Onward p (p.register owner callback).1 :=
  of_concat (by simp [callbacks_register]) (p.trace_register owner callback) (by simp)

theorem cancel (p : Program) (owner : Owner) (handle : Nat) : Onward p (p.cancel owner handle) :=
  of_concat (by cases owner <;> exact Nat.le_refl _) (p.trace_cancel owner handle) (by simp)

theorem atOnce (p : Program) (owner : Owner) (callback : Callback) :
    Onward p ((p.register owner callback).1.enter p.callbacks.length
      (.calledAtOnce p.callbacks.length)) where
  callbacks := by simp [Program.enter, Program.mark, callbacks_register]
  added := by
    refine ⟨[.registered owner (p.registry owner).size p.callbacks.length,
      .calledAtOnce p.callbacks.length], ?_, by simp⟩
    rw [trace_enter, trace_register, List.append_assoc]
    rfl

theorem calls {round : Nat} {slots : List (Nat × CallbackId)} {s t : Program × Nat}
    (called : Calls Onward round slots s t) : Onward s.1 t.1 := by
  induction called with
  | nil s => exact of_unmarked (.refl s.1)
  | @completed p q n slot slots t hcall _ ih =>
    have hentered := enter p slot.2 (m := .called round slot.1 slot.2) (by simp)
    exact hentered.trans (hcall.trans ((mark q (by simp)).trans ih))
  | @panicked p q n slot slots t message hcall _ ih =>
    have hentered := enter p slot.2 (m := .called round slot.1 slot.2) (by simp)
    exact hentered.trans (hcall.trans ((of_unmarked (.note q _)).trans ih))

theorem round {p q : Program} {owner : Owner} {completed : Nat}
    (called : Calls Onward p.journal.length (p.registry owner).live (p.mark (.began owner), 0)
      (q, completed)) : Onward p (q.mark (.ended p.journal.length completed)) :=
  (mark p (by simp)).trans ((calls called).trans (mark q (by simp)))

end Onward

theorem maintained_onward : Maintained Onward :=
  .of_unmarked .of_unmarked .trans (fun p owner callback _ => .register p owner callback)
    (fun p owner callback _ => .atOnce p owner callback) .cancel .round

theorem onward_after (p : Program) (run : List Action) : Onward p (p.after run) :=
  maintained_onward.after_of_unmarked .of_unmarked p run

theorem onward_runWithin (depth : Nat) (p : Program) (c : CallbackId) :
    Onward p (runWithin depth p c).1 :=
  maintained_onward.respected.runWithin depth p c

theorem onward_perform (depth : Nat) (script : Script) (p : Program) :
    Onward p (perform (some (runWithin depth)) script p).1 := by
  refine maintained_onward.respected.perform (fun run hrun => ?_) script p
  obtain rfl := Option.some.inj hrun
  exact onward_runWithin depth

/-- A cancelled slot stays empty, since its handle is not registered again. -/
theorem Recorded.cancelled {p q : Program} (hp : p.Recorded) (hq : q.Recorded)
    (h : Onward p q) {owner : Owner} {handle : Nat}
    (hcancelled : (p.registry owner).slots[handle]? = some none) :
    (q.registry owner).slots[handle]? = some none := by
  obtain ⟨new, htrace, -⟩ := h.added
  obtain ⟨hlt, -⟩ := List.getElem?_eq_some_iff.1 hcancelled
  have hregistered : handle ∈ (p.trace.filterMap (Mark.registered? owner)).map Prod.fst := by
    rw [hp.handles]
    exact List.mem_range.2 hlt
  have hlater : handle < (q.registry owner).slots.length := by
    apply List.mem_range.1
    show handle ∈ List.range (q.registry owner).size
    rw [← hq.handles, htrace, List.filterMap_append, List.map_append]
    exact List.mem_append_left _ hregistered
  have hnodup : ((q.trace.filterMap (Mark.registered? owner)).map Prod.fst).Nodup := by
    rw [hq.handles]
    exact List.nodup_range
  cases hslot : (q.registry owner).slots[handle] with
  | none => rw [List.getElem?_eq_getElem hlater, hslot]
  | some c =>
    have live : LiveIn q.trace owner handle c :=
      hq.slots.1 (by rw [List.getElem?_eq_getElem hlater, hslot])
    rw [htrace] at live hnodup
    rw [hp.slots.2 (live.of_append hnodup hregistered)] at hcancelled
    cases hcancelled

/-! ## What the operations do -/

/-- What registering a callback does and answers, where the callback may be called at once. -/
structure Registered (p : Program) (run : Runner) (owner : Owner) (callback : Callback) (now : Bool)
    (answer : Program × Outcome × Nat) : Prop where
  handle : answer.2.2 = (p.registry owner).size
  state : (answer.1, answer.2.1) =
    if now then
      run ((p.register owner callback).1.enter p.callbacks.length
        (.calledAtOnce p.callbacks.length)) p.callbacks.length
    else ((p.register owner callback).1, .completed)
  trace : ∃ new, answer.1.trace =
      p.trace ++ .registered owner (p.registry owner).size p.callbacks.length ::
        (if now then .calledAtOnce p.callbacks.length :: new else []) ∧
    .calledAtOnce p.callbacks.length ∉ new

theorem registered_register (p : Program) (run : Runner) (owner : Owner) (callback : Callback) :
    Registered p run owner callback false
      ((p.register owner callback).1, .completed, (p.register owner callback).2) where
  handle := rfl
  state := rfl
  trace := ⟨[], p.trace_register owner callback, List.not_mem_nil⟩

theorem registered_registerAndCall (p : Program) (depth : Nat) (owner : Owner)
    (callback : Callback) :
    Registered p (runWithin depth) owner callback true
      (p.registerAndCall (runWithin depth) owner callback) where
  handle := rfl
  state := rfl
  trace := by
    obtain ⟨new, hnew, hlater⟩ := (onward_runWithin depth
      ((p.register owner callback).1.enter p.callbacks.length (.calledAtOnce p.callbacks.length))
      p.callbacks.length).added
    refine ⟨new, ?_, fun member => ?_⟩
    · rw [trace_enter, trace_register, List.append_assoc, List.append_assoc] at hnew
      exact hnew
    · have hle := hlater _ member
      simp only [Program.enter, Program.mark, callbacks_register, List.length_modify,
        List.length_append, List.length_singleton] at hle
      exact Nat.not_succ_le_self _ hle

theorem registered_onUpdate (p : Program) (i : ResolverId) (callback : Callback) (now : Bool) :
    Registered p Program.run (.resolver i) callback now (p.onUpdate i callback now) := by
  cases now with
  | false => exact registered_register p Program.run (.resolver i) callback
  | true => exact registered_registerAndCall p nestingLimit (.resolver i) callback

/-- A round begins, and ends with the number that it answers. -/
theorem exists_trace_invokeAllWith (p : Program) (depth : Nat) (owner : Owner) :
    ∃ new, (p.invokeAllWith (runWithin depth) owner).1.trace =
      p.trace ++ .began owner :: new ++
        [.ended p.trace.length (p.invokeAllWith (runWithin depth) owner).2] := by
  obtain ⟨q, completed, each, hq⟩ := exists_runsEach_invokeAllWith (runWithin depth) p owner
  obtain ⟨new, hnew, -⟩ := (Onward.calls (each.calls (onward_runWithin depth))).added
  refine ⟨new, ?_⟩
  rw [hq, trace_mark, hnew, trace_mark, length_trace]
  simp

theorem Recorded.invokeAllWith {p : Program} (recorded : p.Recorded) (depth : Nat)
    (owner : Owner) :
    RoundDone (p.invokeAllWith (runWithin depth) owner).1.trace p.trace.length owner ∧
      (p.invokeAllWith (runWithin depth) owner).2 = (completionsOf p.trace.length
        (p.invokeAllWith (runWithin depth) owner).1.trace).length := by
  obtain ⟨new, hnew⟩ := exists_trace_invokeAllWith p depth owner
  obtain ⟨-, hgrown⟩ := lawful_invokeAllWith p depth owner recorded
  have hbegan : (p.invokeAllWith (runWithin depth) owner).1.trace[p.trace.length]? =
      some (.began owner) := by simp [hnew]
  have hround := hgrown.done (Nat.le_refl _) hbegan
  refine ⟨hround, ?_⟩
  have hended : (p.invokeAllWith (runWithin depth) owner).2 ∈
      (marksOf p.trace.length (p.invokeAllWith (runWithin depth) owner).1.trace).filterMap
        Mark.ended? := by
    refine List.mem_filterMap.2 ⟨.ended p.trace.length _, List.mem_filter.2 ⟨?_, ?_⟩, rfl⟩
    · rw [hnew]
      simp
    · simp [Mark.round?]
  rw [hround.ended] at hended
  exact List.mem_singleton.1 hended

/-- What the operations on a registry do in any state, also inside of callbacks, where calls may
nest to a depth. -/
structure Operates (p : Program) (depth : Nat) (owner : Owner) : Prop where
  register : ∀ callback, Registered p (runWithin depth) owner callback false
    ((p.register owner callback).1, .completed, (p.register owner callback).2)
  registerAndCall : ∀ callback, Registered p (runWithin depth) owner callback true
    (p.registerAndCall (runWithin depth) owner callback)
  cancel : ∀ handle, OnlyCancels p owner handle
  invokeAll : ∃ q completed,
    RunsEach (runWithin depth) p.journal.length (p.registry owner).live (p.mark (.began owner), 0)
      (q, completed) ∧
    p.invokeAllWith (runWithin depth) owner =
      (q.mark (.ended p.journal.length completed), completed)

theorem operates (p : Program) (depth : Nat) (owner : Owner) : p.Operates depth owner where
  register := registered_register p (runWithin depth) owner
  registerAndCall := registered_registerAndCall p depth owner
  cancel := onlyCancels p owner
  invokeAll := exists_runsEach_invokeAllWith (runWithin depth) p owner

/-- After every run the marks tell what is in the registries and how often callbacks have run, and
every round, also one inside of another, has called what was live when it began. -/
theorem callbacks_run_while_live (run : List Action) :
    (ofRun run).Recorded ∧
    (∀ round owner, (ofRun run).trace[round]? = some (.began owner) →
      RoundDone (ofRun run).trace round owner) ∧
    (∀ owner, RoundDone ((ofRun run).invokeAll owner).1.trace (ofRun run).trace.length owner ∧
      ((ofRun run).invokeAll owner).2 = (completionsOf (ofRun run).trace.length
        ((ofRun run).invokeAll owner).1.trace).length) ∧
    (∀ i callback now, Registered (ofRun run) Program.run (.resolver i) callback now
      ((ofRun run).onUpdate i callback now)) ∧
    (∀ later : List Action, Onward (ofRun run) (ofRun (run ++ later)) ∧
      ∀ (owner : Owner) (handle : Nat), ((ofRun run).registry owner).slots[handle]? = some none →
        ((ofRun (run ++ later)).registry owner).slots[handle]? = some none) ∧
    ∀ (p : Program) (depth : Nat), (∀ owner, p.Operates depth owner) ∧
      ∀ script, Onward p (perform (some (runWithin depth)) script p).1 := by
  have recorded (run : List Action) : (ofRun run).Recorded ∧
      Grown (fun _ => False) [] (ofRun run).trace := lawful_after {} run recorded_start
  refine ⟨(recorded run).1, ?rounds, ?invoked, ?registered, ?later, ?operations⟩
  case rounds =>
    intro round owner hbegan
    exact (recorded run).2.done (Nat.zero_le _) hbegan
  case invoked => exact (recorded run).1.invokeAllWith nestingLimit
  case registered => exact registered_onUpdate (ofRun run)
  case later =>
    intro later
    have onward : Onward (ofRun run) (ofRun (run ++ later)) := by
      rw [ofRun, ofRun, after_append]
      exact onward_after _ later
    exact ⟨onward, fun owner handle hcancelled =>
      (recorded run).1.cancelled (recorded (run ++ later)).1 onward hcancelled⟩
  case operations =>
    intro p depth
    exact ⟨p.operates depth, fun script => onward_perform depth script p⟩

/-- In each of two rounds the first callback registers another one, which is called at once, and
cancels the second one. That one is called in the first round all the same, and panics. -/
def cancelledInside : List Action :=
  [.newRegistry "r",
    .registerIn "r" "a" (fun _ => .register "r" (fun _ => .done) true fun _ => .cancel "r" 1 .done),
    .registerIn "r" "b" (fun _ => .panic none), .invoke "r", .invoke "r"]

theorem callbacks_run_while_live_nested :
    (ofRun cancelledInside).Recorded ∧
    RoundDone (ofRun cancelledInside).trace 2 (.registry 0) ∧
    RoundDone (ofRun cancelledInside).trace 10 (.registry 0) ∧
    callsOf 2 (ofRun cancelledInside).trace = [(0, 0), (1, 1)] ∧
    completionsOf 2 (ofRun cancelledInside).trace = [0] ∧
    callsOf 10 (ofRun cancelledInside).trace = [(0, 0), (2, 2)] ∧
    (ofRun cancelledInside).trace.filter (Mark.calls 2) = [.calledAtOnce 2, .called 10 2 2] := by
  obtain ⟨recorded, rounds, -⟩ := callbacks_run_while_live cancelledInside
  refine ⟨recorded, rounds 2 (.registry 0) ?_, rounds 10 (.registry 0) ?_, ?_, ?_, ?_, ?_⟩
  all_goals decide +kernel

end Program
end LayeredSettings
