import LayeredSettings.Proofs.Program.Dropping

/-!
What ends when a resolver is no longer alive.

Tasks do not keep a resolver alive, except while they reload it or run a round of its callbacks.
Once nobody has a handle of it and nothing that is going on holds it, it is never reloaded again,
none of its callbacks runs, and its task has reason to end.
-/

namespace LayeredSettings

open Program

/-! ## What has nothing to do with a resolver -/

section
variable {p q : Program} {i : ResolverId} {op : Operation}

/-- Only who takes hold of a resolver makes that it is in use. -/
theorem Operation.unused_effect (foreign : ¬op.Concerns p i) (unused : p.inUse i = false) :
    (op.effect p).inUse i = false := by
  refine Bool.eq_false_iff.2 fun inUse => ?_
  rcases inUse_before inUse with before | ⟨name, rfl⟩ | rfl
  · cases before.symm.trans unused
  · exact foreign (.inr (.inl rfl))
  · exact foreign (.inr (.inl rfl))

theorem Operation.publishes_of_foreign (foreign : ¬op.Concerns p i) :
    ∀ entry ∈ op.publishes p, entry.1 ≠ i := by
  intro entry member same
  cases op with
  | reload j =>
    obtain ⟨published, -, rfl⟩ := List.mem_map.1 member
    exact foreign (.inl (congrArg (some ∘ Owner.resolver) same))
  | _ => cases member

/-- What has happened since a program was `p` has nothing to do with a resolver. -/
structure Abandoned (i : ResolverId) (p q : Program) : Prop where
  resolver : q.resolvers[i]? = p.resolvers[i]?
  journal : ∃ new, q.journal = new ++ p.journal ∧ ∀ m ∈ new, m.owner? ≠ some (.resolver i)
  callbacks : ∀ {handle : Nat} {c : CallbackId} {called : CallbackRecord},
    .registered (.resolver i) handle c ∈ p.journal → p.callbacks[c]? = some called →
    q.callbacks[c]? = some called

theorem Abandoned.refl (i : ResolverId) (p : Program) : Abandoned i p p where
  resolver := rfl
  journal := ⟨[], rfl, List.forall_mem_nil _⟩
  callbacks _ found := found

theorem Abandoned.effect (abandoned : Abandoned i p q) (exist : i < q.resolvers.length)
    (foreign : ¬op.Concerns q i) : Abandoned i p (op.effect q) where
  resolver := by
    have other : op.owner? ≠ some (.resolver i) := fun own => foreign (.inl own)
    exact (Operation.resolver_effect other exist).trans abandoned.resolver
  journal := by
    obtain ⟨before, marks, others⟩ := abandoned.journal
    obtain ⟨new, marked, own⟩ := op.journal_effect q
    refine ⟨new ++ before, by rw [marked, marks, List.append_assoc], fun m member about => ?_⟩
    rcases List.mem_append.1 member with now | earlier
    · exact foreign (.inl (own m now _ about))
    · exact others m earlier about
  callbacks {handle c called} registered found := by
    obtain ⟨before, marks, -⟩ := abandoned.journal
    refine Operation.callback_effect (abandoned.callbacks registered found) fun m entered => ?_
    subst entered
    exact foreign (.inr (.inr ⟨c, rfl, handle, marks ▸ List.mem_append_right _ registered⟩))

/-- The callbacks that the resolver has are those that it had, and they have run as often. -/
theorem Abandoned.runsOf (abandoned : Abandoned i p q)
    (ids : p.trace.filterMap Mark.new? = List.range p.callbacks.length) {handle : Nat}
    {c : CallbackId} (registered : .registered (.resolver i) handle c ∈ q.journal) :
    q.runsOf c = p.runsOf c := by
  obtain ⟨new, marks, foreign⟩ := abandoned.journal
  have before : .registered (.resolver i) handle c ∈ p.journal := by
    rcases List.mem_append.1 (marks ▸ registered) with now | before
    · exact absurd rfl (foreign _ now)
    · exact before
  have known : c ∈ p.trace.filterMap Mark.new? :=
    List.mem_filterMap.2 ⟨_, List.mem_reverse.2 before, rfl⟩
  rw [ids, List.mem_range] at known
  have found := List.getElem?_eq_getElem known
  rw [Program.runsOf, Program.runsOf, abandoned.callbacks before found, found]

end

/-- The operation that comes next. -/
def Process.next? {α : Type} : Process α → Option Operation
  | .ended _ => none
  | .step _ _ op _ => some op

/-! ## Nobody gets hold of it again -/

namespace Pool

variable {s : Pool} {i : ResolverId} {w : WatchId} {n : Nat}

theorem alive_of_held {thread : Thread} (found : s.threads[n]? = some thread)
    (held : i ∈ thread.rest.held) : s.alive i = true := by
  refine Bool.or_eq_true .. ▸ .inr (List.any_eq_true.2 ⟨thread, List.mem_of_getElem? found, ?_⟩)
  exact List.contains_iff_mem.2 held

theorem alive_eq_false_iff : s.alive i = false ↔
    s.scene.program.inUse i = false ∧ ∀ thread ∈ s.threads, i ∉ thread.rest.held := by
  simp [alive]

/-- A resolver is there, but it is not alive. -/
structure Dead (i : ResolverId) (s : Pool) : Prop where
  complies : s.Complies .free everyone
  exist : i < s.scene.program.resolvers.length
  dead : s.alive i = false

namespace Dead

variable (h : s.Dead i)
include h

/-- Threads act only on what they hold. -/
theorem foreign {a : Action} {rounds : List Round} {held : List ResolverId} {op : Operation}
    {next : Program → (ResolverId → Bool) → Process (Option (Except Fault Int64))}
    (found : s.threads[n]? = some ⟨a, .step rounds held op next⟩) :
    ¬op.Concerns s.scene.program i := by
  intro concerns
  obtain ⟨-, -, concerned, -⟩ :=
    h.complies.going n _ found trivial s.scene h.complies.ok (.refl s.scene)
  rcases concerned i concerns with holds | none
  · cases (alive_of_held found holds).symm.trans h.dead
  · cases none

theorem move (m : Move) : (s.move m).Dead i := by
  obtain ⟨unused, unheld⟩ := alive_eq_false_iff.1 h.dead
  cases m with
  | begin a =>
    refine ⟨h.complies.begin fun _ => Terms.admits_free a, h.exist, ?_⟩
    refine alive_eq_false_iff.2 ⟨unused, List.forall_mem_append.2 ⟨unheld, ?_⟩⟩
    refine List.forall_mem_singleton.2 ?_
    dsimp only
    rw [held_ofAction]
    exact List.not_mem_nil
  | advance n =>
    show (s.advance n).Dead i
    have complies : (s.advance n).Complies .free everyone :=
      h.complies.advance s.alive_free fun _ => trivial
    rcases s.advance_eq n with ⟨same, -⟩ | ⟨a, rounds, held, op, next, found, stepped⟩
    · exact same.symm ▸ h
    · obtain ⟨-, -, -, further⟩ :=
        h.complies.going n _ found trivial s.scene h.complies.ok (.refl s.scene)
      obtain ⟨-, offered, -⟩ := further s.alive s.alive_free
      refine ⟨complies, ?_, ?_⟩
      · rw [stepped]
        exact Nat.lt_of_lt_of_le h.exist (op.length_resolvers_le _)
      · rw [stepped]
        refine alive_eq_false_iff.2 ⟨Operation.unused_effect (h.foreign found) unused, ?_⟩
        intro other member holds
        rcases List.mem_or_eq_of_mem_set member with before | rfl
        · exact unheld other before holds
        · -- What the thread holds now it held before, or it was on offer.
          rcases offered i holds with held | none | alive | inUse | new
          · cases (alive_of_held found held).symm.trans h.dead
          · cases none
          · cases alive.symm.trans h.dead
          · cases inUse.symm.trans unused
          · exact absurd h.exist (Nat.not_lt.2 new)

theorem after (moves : List Move) : (s.after moves).Dead i := by
  induction moves generalizing s with
  | nil => exact h
  | cons m moves ih => exact ih (h.move m)

theorem abandoned (moves : List Move) :
    Abandoned i s.scene.program (s.after moves).scene.program ∧
      (s.after moves).scene.published.filter (·.1 = i) =
        s.scene.published.filter (·.1 = i) := by
  induction moves using List.reverseRecOn with
  | nil => exact ⟨.refl i _, rfl⟩
  | append_singleton moves last ih =>
    obtain ⟨abandoned, published⟩ := ih
    have dead := h.after moves
    rw [after_append]
    cases last with
    | begin a => exact ⟨abandoned, published⟩
    | advance n =>
      show Abandoned i _ ((s.after moves).advance n).scene.program ∧
        ((s.after moves).advance n).scene.published.filter _ = _
      rcases (s.after moves).advance_eq n with
        ⟨same, -⟩ | ⟨a, rounds, held, op, next, found, stepped⟩
      · rw [same]
        exact ⟨abandoned, published⟩
      · have foreign := dead.foreign found
        have nothing : (op.publishes (s.after moves).scene.program).filter (·.1 = i) = [] :=
          List.filter_eq_nil_iff.2 fun entry member =>
            by simpa using Operation.publishes_of_foreign foreign entry member
        rw [stepped]
        refine ⟨abandoned.effect dead.exist foreign, ?_⟩
        show List.filter _ (_ ++ _) = _
        rw [List.filter_append, nothing, List.append_nil, published]

end Dead
end Pool

/-! ## Tasks -/

/-- A watch is one of a resolver. -/
def Program.Watches (p : Program) (w : WatchId) (i : ResolverId) : Prop :=
  ∃ watch, p.watches[w]? = some watch ∧ watch.resolver = i

theorem Program.ended_endTask {p : Program} {w : WatchId} {i : ResolverId}
    (watches : p.Watches w i) : (p.endTask w).Ended w := by
  obtain ⟨watch, found, -⟩ := watches
  rw [endTask, found]
  dsimp only
  split
  · exact ⟨watch.endTask, getElem?_modifyWatch Watch.endTask found, rfl⟩
  · rename_i ended
    exact ⟨watch, found, Bool.eq_false_iff.2 ended⟩

theorem Program.Watches.effect {p : Program} {w : WatchId} {i : ResolverId}
    (watches : p.Watches w i) (op : Operation) : (op.effect p).Watches w i := by
  obtain ⟨watch, found, own⟩ := watches
  obtain ⟨now, found, same⟩ := op.watch_stays found
  exact ⟨now, found, same.trans own⟩

/-- Within a number of operations a process ends a task whose resolver is not alive. -/
def Process.Winds {α : Type} (i : ResolverId) (w : WatchId) : Nat → Process α → Prop
  | 0, _ => False
  | _ + 1, .ended _ => False
  | k + 1, .step _ _ op next =>
    op = .endTask w ∨ ∀ p alive, alive i = false → p.Watches w i → (next p alive).Winds i w k

theorem Process.winds_endTask (i : ResolverId) (w : WatchId) :
    (ofAction (.endTask w)).Winds i w 2 := by
  refine .inr fun p alive dead watches => ?_
  obtain ⟨watch, found, rfl⟩ := watches
  have isOver : p.watches[w]?.any (fun watch => watch.isOver || !alive watch.resolver) = true := by
    simp [found, dead]
  simp only [Process.bind, isOver, if_true]
  exact .inl rfl

/-- A change of the file that the task has taken. -/
theorem Process.winds_handleChange (i : ResolverId) (w : WatchId) :
    (silently (handleChange w i)).Winds i w 2 := by
  refine .inr fun p alive dead _ => ?_
  simp only [Process.bind, dead, Bool.false_and, Bool.false_eq_true, if_false]
  exact .inl rfl

namespace Pool

variable {s : Pool} {i : ResolverId} {w : WatchId} {n : Nat}

theorem Dead.ended_after (h : s.Dead i) (watches : s.scene.program.Watches w i) {k : Nat}
    {thread : Thread} (found : s.threads[n]? = some thread) (winds : thread.rest.Winds i w k)
    {moves : List Move} (enough : k ≤ moves.countP (·.advances n)) :
    (s.after moves).scene.program.Ended w := by
  induction moves generalizing s k thread with
  | nil =>
    obtain rfl : k = 0 := Nat.le_zero.1 enough
    exact winds.elim
  | cons m moves ih =>
    have exist := (List.getElem?_eq_some_iff.1 found).1
    have still : (s.move m).scene.program.Watches w i :=
      program_after (I := fun p => p.Watches w i) (fun op watches => watches.effect op) watches [m]
    rw [List.countP_cons] at enough
    cases m with
    | begin a =>
      have there : (s.move (.begin a)).threads[n]? = some thread :=
        (List.getElem?_append_left exist).trans found
      exact ih (h.move _) still there winds enough
    | advance m =>
      by_cases turn : m = n
      · subst turn
        rw [if_pos (by simp [Move.advances])] at enough
        cases k with
        | zero => exact winds.elim
        | succ k =>
          obtain ⟨a, rest⟩ := thread
          cases rest with
          | ended answer => exact winds.elim
          | step rounds held op next =>
            have stepped := advance_of_step found
            rcases winds with rfl | winds
            · refine program_after (I := fun p => p.Ended w)
                (fun op ended => ended.effect op) ?_ moves
              show (s.advance m).scene.program.Ended w
              rw [stepped]
              exact ended_endTask watches
            · have there : (s.advance m).threads[m]? =
                  some ⟨a, next s.scene.program s.alive⟩ := by
                rw [stepped, List.getElem?_set_self exist]
              exact ih (h.move _) still there (winds _ _ h.dead watches) (by omega)
      · have there : (s.advance m).threads[n]? = some thread := by
          rcases s.advance_eq m with ⟨same, -⟩ | ⟨_, _, _, _, _, -, stepped⟩
          · rw [same, found]
          · rw [stepped, List.getElem?_set_ne turn, found]
        rw [if_neg (by simp [Move.advances, turn])] at enough
        exact ih (h.move _) still there winds enough

/-- The reload task of a watch ends when it gets the chance to, and also if it is about to reload
because of a change, whatever else happens meanwhile. -/
structure Ends (s : Pool) (w : WatchId) : Prop where
  chance : ∀ moves, 2 ≤ moves.countP (·.advances s.threads.length) →
    (s.after (.begin (.endTask w) :: moves)).scene.program.Ended w
  change : ∀ {watch : Watch} {later : List WatchEvent},
    s.scene.program.watches[w]? = some watch → watch.events = .changed :: later →
    ∀ moves, 2 ≤ moves.countP (·.advances s.threads.length) →
    (s.after (.begin (.takeEvent w) :: .advance s.threads.length :: moves)).scene.program.Ended w

theorem Dead.ends (h : s.Dead i) (watches : s.scene.program.Watches w i) : s.Ends w where
  chance moves enough := by
    have begun : (s.move (.begin (.endTask w))).threads[s.threads.length]? =
        some ⟨.endTask w, Process.ofAction (.endTask w)⟩ := List.getElem?_concat_length
    exact (h.move (.begin (.endTask w))).ended_after watches begun (Process.winds_endTask i w)
      enough
  change {watch later} found waiting moves enough := by
    obtain ⟨watch', found', rfl⟩ := watches
    cases found.symm.trans found'
    let t := s.move (.begin (.takeEvent w))
    have begun : t.threads[s.threads.length]? =
        some ⟨.takeEvent w, Process.ofAction (.takeEvent w)⟩ := List.getElem?_concat_length
    have exist := (List.getElem?_eq_some_iff.1 begun).1
    have taken : (t.advance s.threads.length).threads[s.threads.length]? =
        some ⟨.takeEvent w, Process.silently (Process.handleChange w watch.resolver)⟩ := by
      rw [advance_of_step begun, List.getElem?_set_self exist]
      have first : t.scene.program.watches[w]? = some watch := found
      simp only [first, Option.bind_some, waiting, List.head?_cons, Option.map_some]
      rfl
    have still : (t.advance s.threads.length).scene.program.Watches w watch.resolver :=
      program_after (I := fun p => p.Watches w watch.resolver)
        (fun op watches => watches.effect op) (s := t) ⟨watch, found, rfl⟩
        [.advance s.threads.length]
    exact ((h.move (.begin (.takeEvent w))).move (.advance s.threads.length)).ended_after still
      taken (Process.winds_handleChange _ w) enough

/-- A resolver has not been alive since a pool was `s`. Nobody has it in hand, nothing that is still
to come acts on it or loads its file, and its tasks end. -/
structure Gone (i : ResolverId) (s t : Pool) : Prop where
  dead : t.alive i = false
  resolver : t.scene.program.resolvers[i]? = s.scene.program.resolvers[i]?
  published : t.scene.published.filter (·.1 = i) = s.scene.published.filter (·.1 = i)
  next : ∀ thread ∈ t.threads, ∀ op ∈ thread.rest.next?, ¬op.Concerns t.scene.program i
  rounds : ∃ new, t.scene.program.trace = s.scene.program.trace ++ new ∧
    .began (.resolver i) ∉ new
  runs : ∀ {handle : Nat} {c : CallbackId},
    .registered (.resolver i) handle c ∈ t.scene.program.trace →
    t.scene.program.runsOf c = s.scene.program.runsOf c
  tasks : ∀ {w : WatchId} {watch : Watch}, t.scene.program.watches[w]? = some watch →
    watch.resolver = i → t.Ends w

theorem Dead.gone (h : s.Dead i) (later : List Move) : Gone i s (s.after later) := by
  have dead := h.after later
  obtain ⟨abandoned, published⟩ := h.abandoned later
  obtain ⟨new, marks, foreign⟩ := abandoned.journal
  constructor
  case dead => exact dead.dead
  case resolver => exact abandoned.resolver
  case published => exact published
  case next =>
    intro thread member op comes
    obtain ⟨n, found⟩ := List.mem_iff_getElem?.1 member
    obtain ⟨a, rest⟩ := thread
    cases rest with
    | ended answer => cases comes
    | step rounds held op' next =>
      cases comes
      exact dead.foreign found
  case rounds =>
    refine ⟨new.reverse, ?_, fun member => foreign _ (List.mem_reverse.1 member) rfl⟩
    rw [trace, marks, List.reverse_append]
    rfl
  case runs =>
    intro handle c registered
    exact abandoned.runsOf h.complies.ok.ids (List.mem_reverse.1 registered)
  case tasks => exact fun found own => dead.ends ⟨_, found, own⟩

/-- As long as a resolver is alive, it makes no difference to whoever does not use a handle of it
when that is dropped, or whether it is: rounds and reloads in progress go on in the same way. Once
it is not alive any more, nobody loads its file, publishes a document or runs its callbacks,
whatever is still queued, and the task of each of its watches ends. -/
theorem resolver_lives_while_held :
    (∀ (moves later : List Move) (dropped : Access) (i : ResolverId) (n : Nat),
      (start.after moves).Dropping dropped i n → (∀ m ∈ later, m.Forgoes dropped n) →
      (∀ done, done <+: later → (start.after (moves ++ .advance n :: done)).alive i = true) →
      start.after (moves ++ .advance n :: later) = start.after (moves ++ later ++ [.advance n]) ∧
      OnlyLacks dropped n (start.after (moves ++ later))
        (start.after (moves ++ .advance n :: later))) ∧
    ∀ (moves later : List Move) (i : ResolverId),
      i < (start.after moves).scene.program.resolvers.length →
      (start.after moves).alive i = false →
      Gone i (start.after moves) (start.after (moves ++ later)) := by
  refine ⟨fun moves later dropped i n dropping forgoes left => ?dropping,
    fun moves later i exist dead => ?gone⟩
  case dropping =>
    have without (done : List Move) : start.after (moves ++ .advance n :: done) =
        ((start.after moves).advance n).after done := after_append ..
    obtain ⟨parting, same⟩ := dropping.parting.after forgoes fun done before =>
      without done ▸ left done before
    have here : start.after (moves ++ .advance n :: later) =
        (start.after (moves ++ later)).advance n := by
      rw [without, same, after_append]
    have alive := left later List.prefix_rfl
    rw [here] at alive ⊢
    rw [← after_append] at parting
    exact ⟨(after_append _ (moves ++ later) [.advance n]).symm, parting.onlyLacks alive⟩
  case gone =>
    have here : (start.after moves).Dead i := ⟨complies_after moves, exist, dead⟩
    rw [after_append]
    exact here.gone later

/-- A resolver with two handles and a watch, for which an event is queued. A reload through one of
the handles has just published a document. -/
def reloadInProgress : List Move :=
  uninterrupted 0 (.writeFile "s.json" (some "[\x7b\"version\":1,\"end\":true\x7d]")) ++
  uninterrupted 1 (.openFile "s" "s.json" none Facts.none) ++
  uninterrupted 2 (.clone (.named "s") "t") ++
  uninterrupted 3 (.startWatch (.named "t") "n" (fun _ => .controlled) true) ++
  uninterrupted 4 (.writeFile "s.json" (some "[\x7b\"version\":2,\"end\":true\x7d]")) ++
  uninterrupted 5 (.send 0 .changed) ++
  .begin (.reload (.named "t")) :: List.replicate 2 (.advance 6)

/-- The other handle is about to be dropped. -/
def droppedInProgress : List Move := reloadInProgress ++ [.begin (.drop "s")]

/-- The handle through which the reload goes is dropped as well, and then its round begins. -/
def lastDropped : List Move := [.begin (.drop "t"), .advance 8, .advance 6]

theorem dropping_droppedInProgress :
    (start.after droppedInProgress).Dropping (.named "s") 0 7 := by
  have count : (start.after reloadInProgress).threads.length = 7 := by decide +kernel
  have ended : ∀ m ∈ List.range 6, ((start.after droppedInProgress).threads[m]?.bind
      fun thread => thread.rest.next?.map fun _ => ()) = none := by decide +kernel
  have none : (start.after droppedInProgress).scene.program.callbacks = [] :=
    List.eq_nil_of_length_eq_zero (by decide +kernel)
  have threads : (start.after droppedInProgress).threads =
      (start.after reloadInProgress).threads ++ [⟨.drop "s", Process.ofAction (.drop "s")⟩] := by
    rw [droppedInProgress, after_append]
    rfl
  constructor
  case reached => decide +kernel
  case thread =>
    rw [threads, ← count]
    exact List.getElem?_concat_length
  case callbacks =>
    intro owner slot member called found
    rw [none] at found
    cases found
  case others =>
    intro m thread other found
    rw [none]
    by_cases last : m = 6
    · have begun : (droppedInProgress.filterMap Move.begun?)[6]? =
          some (.reload (.named "t")) := rfl
      have actions := congrArg (·[m]?) (map_action_after start droppedInProgress)
      simp only [List.getElem?_map, found, Option.map_some] at actions
      have action := Option.some.inj (actions.trans (last ▸ begun))
      refine .inr ⟨?_, List.forall_mem_nil _⟩
      rw [action]
      exact ⟨by simp [Action.settings?], by simp [Action.rebinds?], fun _ same => by cases same⟩
    · have exist := (List.getElem?_eq_some_iff.1 found).1
      rw [threads, List.length_append, count, List.length_singleton] at exist
      have halted := ended m (List.mem_range.2 (by omega))
      rw [found] at halted
      obtain ⟨action, rest⟩ := thread
      cases rest with
      | ended answer => exact .inl ⟨answer, rfl⟩
      | step rounds held op next => cases halted

/-- What is left of the reload. -/
def reloadOver : List Move := List.replicate 2 (.advance 6)

theorem resolver_lives_while_held_queued :
    OnlyLacks (.named "s") 7 (start.after (droppedInProgress ++ lastDropped))
      (start.after (droppedInProgress ++ .advance 7 :: lastDropped)) ∧
    (start.after (droppedInProgress ++ .advance 7 :: lastDropped)).scene.program.inUse 0 = false ∧
    Gone 0 (start.after (droppedInProgress ++ .advance 7 :: lastDropped ++ reloadOver))
      (start.after (droppedInProgress ++ .advance 7 :: lastDropped ++ reloadOver ++
        uninterrupted 9 (.takeEvent 0))) ∧
    ((start.after (droppedInProgress ++ .advance 7 :: lastDropped ++
      reloadOver)).scene.program.watches[0]?.map fun watch => watch.events.length) = some 1 := by
  have forgoes : ∀ m ∈ lastDropped, m.Forgoes (.named "s") 7 := by
    simp only [lastDropped, List.forall_mem_cons, List.not_mem_nil, false_imp_iff, implies_true,
      and_true]
    refine ⟨⟨by simp [Action.settings?], by simp [Action.rebinds?], fun _ same => by cases same⟩,
      ?_, ?_⟩ <;> simp [Move.Forgoes]
  have left : ∀ done ∈ lastDropped.inits,
      (start.after (droppedInProgress ++ .advance 7 :: done)).alive 0 = true := by decide +kernel
  obtain ⟨dropping, gone⟩ := resolver_lives_while_held
  obtain ⟨-, onlyLacks⟩ := dropping droppedInProgress lastDropped (.named "s") 0 7
    dropping_droppedInProgress forgoes fun done before => left done ((List.mem_inits ..).2 before)
  exact ⟨onlyLacks, by decide +kernel, gone _ _ 0 (by decide +kernel) (by decide +kernel),
    by decide +kernel⟩

/-! ## Handles alone do not decide -/

/-- A resolver is left alone from when nobody has a handle of it. -/
def QuietWithoutHandles (moves later : List Move) (i : ResolverId) : Prop :=
  (start.after moves).scene.program.inUse i = false →
    (start.after (moves ++ later)).scene.program.resolvers[i]? =
      (start.after moves).scene.program.resolvers[i]? ∧
    ∀ c, (start.after (moves ++ later)).scene.program.runsOf c =
      (start.after moves).scene.program.runsOf c

/-- Callbacks do not show whether one of several handles has been dropped. -/
def DropUnseen (run later : List Action) (dropped : Access) (i : ResolverId) : Prop :=
  (ofRun run).reached dropped = some i →
    (∀ done, done <+: later → (ofRun (run ++ dropped.release :: done)).inUse i = true) →
    (ofRun (run ++ dropped.release :: later)).recordings = (ofRun (run ++ later)).recordings

/-- During the round of a reload, the first of two callbacks drops the only handle. An event is
queued for the watch. -/
def droppedByCallback : List Move :=
  uninterrupted 0 (.writeFile "s.json" (some "[\x7b\"version\":1,\"end\":true\x7d]")) ++
  uninterrupted 1 (.openFile "s" "s.json" none Facts.none) ++
  uninterrupted 2 (.onUpdate (.named "s") "a" (fun _ => .rebind (.drop "s") .done) false) ++
  uninterrupted 3 (.onUpdate (.named "s") "b" (fun _ => .record "b" .done) false) ++
  uninterrupted 4 (.startWatch (.named "s") "n" (fun _ => .controlled) true) ++
  uninterrupted 5 (.writeFile "s.json" (some "[\x7b\"version\":2,\"end\":true\x7d]")) ++
  uninterrupted 6 (.send 0 .changed) ++
  .begin (.reload (.named "s")) :: List.replicate 5 (.advance 7)

/-- The task takes the event, and then the round goes on. -/
def roundGoesOn : List Move :=
  uninterrupted 8 (.writeFile "s.json" (some "[\x7b\"version\":3,\"end\":true\x7d]")) ++
  uninterrupted 9 (.takeEvent 0) ++ List.replicate 8 (.advance 7)

/-- A callback looks up another handle of its resolver, and records the version that it finds. -/
def lookedUp : List Action :=
  [.writeFile "s.json" (some "[\x7b\"version\":2,\"end\":true\x7d]"),
    .openFile "s" "s.json" none Facts.none, .clone (.named "s") "t",
    .onUpdate (.named "s") "h"
      (Plan.callback (.mk (some "x") (some "t") none none none none none none)) false]

/-- The round holds the resolver, so the event is not lost, and the other callback runs. And a
callback that looks up a handle finds out whether it has been dropped. -/
theorem not_quietWithoutHandles_dropped :
    ¬QuietWithoutHandles droppedByCallback roundGoesOn 0 ∧
    ((start.after droppedByCallback).scene.program.resolvers[0]?.map Resolver.version,
      (start.after droppedByCallback).scene.program.runsOf 1) = (some 2, 0) ∧
    ((start.after (droppedByCallback ++ roundGoesOn)).scene.program.resolvers[0]?.map
      Resolver.version,
      (start.after (droppedByCallback ++ roundGoesOn)).scene.program.runsOf 1) = (some 3, 1) ∧
    ¬DropUnseen lookedUp [.reload (.named "s")] (.named "t") 0 := by
  have unused : (start.after droppedByCallback).scene.program.inUse 0 = false := by decide +kernel
  have before : ((start.after droppedByCallback).scene.program.resolvers[0]?.map Resolver.version,
      (start.after droppedByCallback).scene.program.runsOf 1) = (some 2, 0) := by decide +kernel
  have after : ((start.after (droppedByCallback ++ roundGoesOn)).scene.program.resolvers[0]?.map
      Resolver.version,
      (start.after (droppedByCallback ++ roundGoesOn)).scene.program.runsOf 1) =
        (some 3, 1) := by decide +kernel
  refine ⟨fun quiet => ?_, before, after, fun unseen => ?_⟩
  · have same := (quiet unused).2 1
    rw [(Prod.mk.inj before).2, (Prod.mk.inj after).2] at same
    cases same
  · have left : ∀ done ∈ [Action.reload (.named "s")].inits,
        (ofRun (lookedUp ++ .drop "t" :: done)).inUse 0 = true := by decide +kernel
    have same := unseen (by decide +kernel) fun done before =>
      left done ((List.mem_inits ..).2 before)
    have with_it : (ofRun (lookedUp ++ [.reload (.named "s")])).recordings = ["x@2"] := by
      decide +kernel
    have without : (ofRun (lookedUp ++ [.drop "t", .reload (.named "s")])).recordings = ["x"] := by
      decide +kernel
    exact absurd ((without.symm.trans same).trans with_it) (by decide)

end Pool
end LayeredSettings
