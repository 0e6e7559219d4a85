import Mathlib.Data.List.Induction
import LayeredSettings.Proofs.Program.Balance

/-!
Publications are neither lost nor doubled on their way to a round.

As long as a handle of a resolver is left, the rounds that have run and the publications that still
wait for a dispatcher are, together, all publications there were, each of them once.
-/

namespace LayeredSettings.Program

open scoped List

/-- The reload task of a watch has published and put the publication into the queue. -/
structure Enqueued (w : WatchId) (i : ResolverId) (numbers : List Nat) (p q : Program) : Prop where
  before : p.waiting[w]? = some (i, numbers)
  waiting : q.waiting = p.waiting.set w (i, numbers ++ [p.number i + 1])
  number : ∀ j, q.number j = p.number j + if i = j then 1 else 0
  reloads : ∀ j, q.reloads j = p.reloads j + if i = j then 1 else 0
  rounds : ∀ j, q.rounds j = p.rounds j

/-- The dispatcher of a watch has taken a publication out of the queue and run its round. -/
structure Dispatched (w : WatchId) (i : ResolverId) (number : Nat) (later : List Nat)
    (p q : Program) : Prop where
  before : p.waiting[w]? = some (i, number :: later)
  waiting : ∃ started : List ResolverId,
    q.waiting = p.waiting.set w (i, later) ++ started.map (·, [])
  rounds : ∀ j, ∃ n, q.number j = p.number j + n ∧ q.reloads j = p.reloads j + n ∧
    q.rounds j ~ (if i = j then [number] else []) ++ (List.range' (p.number j + 1) n ++ p.rounds j)
  history : ∃ version completed earlier, p.history <:+ earlier ∧
    q.history = .logged (.invoked i number version completed) :: earlier

/-- Nobody is left for whom the dispatcher of a watch could run rounds. -/
structure Abandoned (w : WatchId) (i : ResolverId) (p q : Program) : Prop where
  before : ∃ number later, p.waiting[w]? = some (i, number :: later)
  unused : p.inUse i = false
  waiting : q.waiting = p.waiting.set w (i, [])
  number : ∀ j, q.number j = p.number j
  reloads : ∀ j, q.reloads j = p.reloads j
  rounds : ∀ j, q.rounds j = p.rounds j

/-- What a step does to publications and rounds. -/
inductive Effect (p : Program) : Action → Program → Prop
  | balanced {a : Action} {q : Program} : (∀ w, a ≠ .takeEvent w) → (∀ w, a ≠ .dispatch w) →
    Balanced p q → Effect p a q
  | unpublished {w : WatchId} {q : Program} : Quiet p q → Effect p (.takeEvent w) q
  | enqueued {w : WatchId} {i : ResolverId} {numbers : List Nat} {q : Program} :
    Enqueued w i numbers p q → Effect p (.takeEvent w) q
  | idle (w : WatchId) : Effect p (.dispatch w) p
  | dispatched {w : WatchId} {i : ResolverId} {number : Nat} {later : List Nat} {q : Program} :
    Dispatched w i number later p q → Effect p (.dispatch w) q
  | abandoned {w : WatchId} {i : ResolverId} {q : Program} :
    Abandoned w i p q → Effect p (.dispatch w) q

theorem waiting_getElem? {p : Program} {w : WatchId} {watch : Watch}
    (hw : p.watches[w]? = some watch) :
    p.waiting[w]? = some (watch.resolver, watch.published.map (·.number)) := by
  simp [waiting, hw]

theorem waiting_modifyWatch {p : Program} {w : WatchId} {watch : Watch}
    (hw : p.watches[w]? = some watch) (f : Watch → Watch) :
    (p.modifyWatch w f).waiting =
      p.waiting.set w ((f watch).resolver, (f watch).published.map (·.number)) := by
  simp only [waiting, modifyWatch]
  apply List.ext_getElem?
  intro v
  simp only [List.getElem?_map, List.getElem?_modify, List.getElem?_set, List.length_map]
  by_cases hwv : w = v
  · subst hwv
    obtain ⟨hlength, rfl⟩ := List.getElem?_eq_some_iff.1 hw
    simp [hlength]
  · simp [hwv]

/-- Loading a document has nothing to do with watches. -/
theorem reloadDocument_modifyWatch (p : Program) (w : WatchId) (f : Watch → Watch)
    (i : ResolverId) :
    (p.modifyWatch w f).reloadDocument i =
      ((p.reloadDocument i).1.modifyWatch w f, (p.reloadDocument i).2) := by
  unfold reloadDocument publish
  simp only [modifyWatch]
  split
  · rfl
  · split
    · rfl
    · split
      · rfl
      · simp only [*]
        rfl

theorem history_suffix : Indifferent fun p q => p.history <:+ q.history where
  refl p := List.suffix_refl p.history
  trans h h' := h.trans h'
  record p text := List.suffix_cons _ p.history
  panic p handle message := List.suffix_cons _ p.history
  mark p m := List.suffix_refl p.history
  enter p c m := List.suffix_refl p.history
  register p owner callback := by cases owner <;> exact List.suffix_refl p.history
  cancel p owner handle := by cases owner <;> exact List.suffix_refl p.history
  rebind p change := by
    rw [p.rebind_eq change]
  reload {p q r i published} completed hq h := by
    obtain ⟨r, source, hr, -, -, -, rfl⟩ := reloadDocument_eq_ok hq
    have hpublish : p.history <:+ (p.publish i published.document).history := by
      simp only [publish, hr]
      exact List.suffix_cons _ p.history
    exact (hpublish.trans h).trans (List.suffix_cons _ _)

/-- A reload that the reload task has done after taking an event from the queue. -/
theorem Enqueued.of_reloadDocument {p q : Program} {w : WatchId} {watch : Watch}
    (hw : p.watches[w]? = some watch) {later : List WatchEvent} {published : Publication}
    (hq : (p.modifyWatch w fun watch => { watch with events := later }).reloadDocument
      watch.resolver = (q, .ok published)) :
    Enqueued w watch.resolver (watch.published.map (·.number)) p
      (q.modifyWatch w fun watch =>
        { watch with published := watch.published ++ [published] }) := by
  have htaken := Quiet.setEvents p w later
  obtain ⟨r, source, hr, -, -, hnumber, rfl⟩ := reloadDocument_eq_ok hq
  rw [← number_eq hr, htaken.number] at hnumber
  have hwatch : ((p.modifyWatch w fun watch => { watch with events := later }).publish
      watch.resolver published.document).watches[w]? = some { watch with events := later } := by
    rw [watches_publish]
    simp [modifyWatch, hw]
  refine ⟨waiting_getElem? hw, ?_, fun j => ?_, fun j => ?_, fun j => ?_⟩
  · rw [waiting_modifyWatch hwatch, waiting_publish, htaken.waiting]
    simp [hnumber]
  · exact (number_publish hr _ j).trans (by rw [htaken.number])
  · exact (reloads_publish hr _ j).trans (by rw [htaken.reloads])
  · exact (rounds_publish hr _ j).trans (htaken.rounds j)

/-- A round that the dispatcher has run after taking a publication from the queue. -/
theorem Dispatched.of_announce {p : Program} {w : WatchId} {watch : Watch}
    (hw : p.watches[w]? = some watch) {next : Publication} {later : List Publication}
    (hpublished : watch.published = next :: later) :
    Dispatched w watch.resolver next.number (later.map (·.number)) p
      ((p.modifyWatch w fun watch => { watch with published := later }).announce
        watch.resolver next) := by
  have hround := Balanced.indifferent.invokeAll
    (p.modifyWatch w fun watch => { watch with published := later }) (.resolver watch.resolver)
  have hhistory := history_suffix.invokeAll
    (p.modifyWatch w fun watch => { watch with published := later }) (.resolver watch.resolver)
  obtain ⟨started, hwaiting⟩ := hround.waiting
  rw [waiting_modifyWatch hw] at hwaiting
  refine ⟨?_, ⟨started, hwaiting⟩, fun j => ?_, ⟨_, _, _, hhistory, rfl⟩⟩
  · rw [waiting_getElem? hw, hpublished, List.map_cons]
  · obtain ⟨n, hnumber, hreloads, hrounds⟩ := hround.rounds j
    refine ⟨n, hnumber, ?_, ?_⟩
    · exact (reloads_log_invoked _ _ _ _ _ j).trans hreloads
    · exact (rounds_log_invoked _ _ _ _ _ j).symm ▸ hrounds.append_left _

theorem Abandoned.of_published {p : Program} {w : WatchId} {watch : Watch}
    (hw : p.watches[w]? = some watch) {next : Publication} {later : List Publication}
    (hpublished : watch.published = next :: later) (hunused : p.inUse watch.resolver = false) :
    Abandoned w watch.resolver p
      (p.modifyWatch w fun watch => { watch with published := [] }) := by
  refine ⟨⟨next.number, later.map (·.number), ?_⟩, hunused, waiting_modifyWatch hw _,
    fun _ => rfl, fun _ => rfl, fun _ => rfl⟩
  rw [waiting_getElem? hw, hpublished, List.map_cons]

theorem effect_takeEvent (p : Program) (w : WatchId) :
    Effect p (.takeEvent w) (p.handleEvent w) := by
  unfold handleEvent
  split
  · exact .unpublished (Quiet.refl p)
  · rename_i watch hw
    split
    · exact .unpublished (Quiet.refl p)
    · rename_i event later _
      have htaken := Quiet.setEvents p w later
      cases event with
      | fault message => exact .unpublished (htaken.trans (Quiet.note rfl _))
      | changed =>
        dsimp only
        split
        · split
          · rename_i q published hq
            exact .enqueued (.of_reloadDocument hw hq)
          · rename_i q fault hq
            obtain rfl := reloadDocument_eq_error hq
            exact .unpublished (htaken.trans (Quiet.note rfl _))
        · exact .unpublished (htaken.trans (Quiet.endTask _ w))

theorem effect_dispatch (p : Program) (w : WatchId) :
    Effect p (.dispatch w) (p.dispatch w) := by
  unfold dispatch
  split
  · exact .idle w
  · rename_i watch hw
    split
    · exact .idle w
    · rename_i next later hpublished
      split
      · exact .dispatched (.of_announce hw hpublished)
      · rename_i hunused
        exact .abandoned (.of_published hw hpublished (Bool.eq_false_iff.2 hunused))

theorem effect_act (p : Program) (a : Action) : Effect p a (p.act a) := by
  by_cases htake : ∃ w, a = .takeEvent w
  · obtain ⟨w, rfl⟩ := htake
    exact effect_takeEvent p w
  · by_cases hdispatch : ∃ w, a = .dispatch w
    · obtain ⟨w, rfl⟩ := hdispatch
      exact effect_dispatch p w
    · rw [not_exists] at htake hdispatch
      exact .balanced htake hdispatch (Balanced.act p htake hdispatch)

/-- All publications of a resolver have had their round or wait for it, each of them once. -/
structure Conserved (p : Program) (i : ResolverId) : Prop where
  perm : p.rounds i ++ p.queued i ~ List.range' 1 (p.number i)
  reloads : p.reloads i = p.number i

theorem flatMap_set {queues : List (ResolverId × List Nat)} {w : WatchId}
    {old : ResolverId × List Nat} (hold : queues[w]? = some old) (new : ResolverId × List Nat)
    (i : ResolverId) :
    ∃ before behind, queues.flatMap (numbersOf i) = before ++ (numbersOf i old ++ behind) ∧
      (queues.set w new).flatMap (numbersOf i) = before ++ (numbersOf i new ++ behind) := by
  obtain ⟨hw, rfl⟩ := List.getElem?_eq_some_iff.1 hold
  obtain ⟨before, behind, hqueues, -, hset⟩ := List.exists_of_set hw
  refine ⟨before.flatMap (numbersOf i), behind.flatMap (numbersOf i), ?_, ?_⟩
  · conv => lhs; rw [hqueues]
    rw [List.flatMap_append, List.flatMap_cons]
  · rw [hset, List.flatMap_append, List.flatMap_cons]

/-- Watches that were just started have nothing in their queues. -/
theorem flatMap_started (started : List ResolverId) (i : ResolverId) :
    (started.map fun j => (j, ([] : List Nat))).flatMap (numbersOf i) = [] := by
  simp [numbersOf]

namespace Conserved

theorem start (i : ResolverId) : Conserved {} i := ⟨.refl _, rfl⟩

variable {p q : Program} {i : ResolverId} (h : Conserved p i)
include h

theorem length : (p.rounds i).length + (p.queued i).length = p.reloads i := by
  have hlength := h.perm.length_eq
  rw [List.length_append, List.length_range'] at hlength
  rw [hlength, h.reloads]

theorem add (n : Nat) (hnumber : q.number i = p.number i + n)
    (hreloads : q.reloads i = p.reloads i + n)
    (hperm : q.rounds i ++ q.queued i ~
      List.range' (p.number i + 1) n ++ (p.rounds i ++ p.queued i)) : Conserved q i where
  perm := by
    calc q.rounds i ++ q.queued i
      _ ~ List.range' (p.number i + 1) n ++ (p.rounds i ++ p.queued i) := hperm
      _ ~ List.range' (p.number i + 1) n ++ List.range' 1 (p.number i) := h.perm.append_left _
      _ ~ List.range' 1 (p.number i) ++ List.range' (p.number i + 1) n := List.perm_append_comm
      _ = List.range' 1 (q.number i) := by
        rw [Nat.add_comm (p.number i) 1, List.range'_append_1, hnumber]
  reloads := by rw [hreloads, hnumber, h.reloads]

theorem balanced (hq : Balanced p q) : Conserved q i := by
  obtain ⟨started, hwaiting⟩ := hq.waiting
  obtain ⟨n, hnumber, hreloads, hrounds⟩ := hq.rounds i
  have hqueued : q.queued i = p.queued i := by
    rw [queued, hwaiting, List.flatMap_append, flatMap_started, List.append_nil, queued]
  refine h.add n hnumber hreloads ?_
  rw [hqueued, ← List.append_assoc]
  exact hrounds.append_right _

theorem enqueued {w : WatchId} {j : ResolverId} {numbers : List Nat}
    (hq : Enqueued w j numbers p q) : Conserved q i := by
  obtain ⟨before, behind, hp, hset⟩ :=
    flatMap_set hq.before (j, numbers ++ [p.number j + 1]) i
  refine h.add (if j = i then 1 else 0) (hq.number i) (hq.reloads i) ?_
  rw [hq.rounds, queued, hq.waiting, hset, queued, hp, List.perm_iff_count]
  intro k
  by_cases hji : j = i
  · subst hji
    simp only [numbersOf, if_true, List.range'_one, List.count_append]
    omega
  · simp [numbersOf, hji]

theorem dispatched {w : WatchId} {j : ResolverId} {number : Nat} {later : List Nat}
    (hq : Dispatched w j number later p q) : Conserved q i := by
  obtain ⟨before, behind, hp, hset⟩ := flatMap_set hq.before (j, later) i
  obtain ⟨started, hwaiting⟩ := hq.waiting
  obtain ⟨n, hnumber, hreloads, hrounds⟩ := hq.rounds i
  refine h.add n hnumber hreloads ?_
  rw [queued, hwaiting, List.flatMap_append, flatMap_started, List.append_nil, hset, queued, hp,
    List.perm_iff_count]
  -- The number leaves the queue and is the latest round: counting any number gives the same.
  intro k
  have hcount := hrounds.count_eq k
  by_cases hji : j = i
  · subst hji
    simp only [numbersOf, if_true, List.cons_append, List.nil_append, List.count_append,
      List.count_cons] at hcount ⊢
    omega
  · simp only [numbersOf, if_neg hji, List.nil_append, List.count_append] at hcount ⊢
    omega

/-- A resolver that does not exist has published nothing. -/
theorem queued_eq_nil (hi : p.resolvers.length ≤ i) : p.queued i = [] := by
  have hnumber : p.number i = 0 := by simp [number, hi]
  have hperm := h.perm
  rw [hnumber, List.range'_zero] at hperm
  exact (List.append_eq_nil_iff.1 hperm.eq_nil).2

/-- As long as a handle is left, no publication is given up. -/
theorem not_abandoned (held : i < p.resolvers.length → p.inUse i = true) {w : WatchId} :
    ¬ Abandoned w i p q := by
  intro hq
  obtain ⟨number, later, hbefore⟩ := hq.before
  by_cases hi : i < p.resolvers.length
  · exact Bool.false_ne_true (hq.unused.symm.trans (held hi))
  · obtain ⟨before, behind, hp, -⟩ := flatMap_set hbefore (i, []) i
    have hnil := h.queued_eq_nil (Nat.le_of_not_lt hi)
    rw [queued, hp] at hnil
    simp [numbersOf] at hnil

theorem abandoned {w : WatchId} {j : ResolverId} (hq : Abandoned w j p q) (hji : j ≠ i) :
    Conserved q i := by
  obtain ⟨number, later, hbefore⟩ := hq.before
  obtain ⟨before, behind, hp, hset⟩ := flatMap_set hbefore (j, []) i
  have hqueued : q.queued i = p.queued i := by
    rw [queued, hq.waiting, hset, queued, hp]
    simp [numbersOf, hji]
  refine h.add 0 (hq.number i) (hq.reloads i) ?_
  rw [hqueued, hq.rounds, List.range'_zero, List.nil_append]

theorem effect {a : Action} (held : i < p.resolvers.length → p.inUse i = true)
    (hq : Effect p a q) : Conserved q i := by
  cases hq with
  | balanced _ _ hq => exact h.balanced hq
  | unpublished hq => exact h.balanced hq.balanced
  | enqueued hq => exact h.enqueued hq
  | idle w => exact h
  | dispatched hq => exact h.dispatched hq
  | abandoned hq =>
    refine h.abandoned hq ?_
    rintro rfl
    exact h.not_abandoned held hq

end Conserved

/-- What one step keeps, a run keeps. -/
theorem conserved_ofRun {i : ResolverId} {run : List Action} (held : Held i run) :
    Conserved (ofRun run) i := by
  -- The last step is split off, since it starts from a state that a run has reached.
  induction run using List.reverseRecOn with
  | nil => exact Conserved.start i
  | append_singleton run a ih =>
    rw [ofRun, after_append]
    exact (ih held.before).effect held.before.inUse (effect_act _ a)

end LayeredSettings.Program
