import LayeredSettings.Proofs.Program.Frame
import LayeredSettings.Proofs.Program.Process
import LayeredSettings.Proofs.Program.Registries

/-!
What single operations do.

Each operation acts on at most one owner of callbacks and on at most one watch. What it does to
resolvers, watches and registries is told here once for all operations.
-/

namespace LayeredSettings

open Program

/-- The owner whose callbacks a mark is about. -/
def Mark.owner? : Mark → Option Owner
  | .registered owner _ _ => some owner
  | .cancelled owner _ => some owner
  | .began owner => some owner
  | _ => none

namespace Operation

/-- The owner of callbacks that an operation acts on. -/
def owner? : Operation → Option Owner
  | .mark m => m.owner?
  | .enter _ m => m.owner?
  | .register owner _ => some owner
  | .cancel owner _ => some owner
  | .reload i => some (.resolver i)
  | .startWatch i _ _ => some (.resolver i)
  | .requestStop i => some (.resolver i)
  | _ => none

/-- The watch that an operation acts on. -/
def watch? : Operation → Option WatchId
  | .send w _ => some w
  | .close w => some w
  | .takeEvent w => some w
  | .endTask w => some w
  | .queue w _ => some w
  | .takePublication w => some w
  | .discard w => some w
  | _ => none

/-- Whether names, or what is installed, may refer to something else from now on. -/
def refers : Operation → Bool
  | .holdSettings .. => true
  | .dropSettings _ => true
  | .install _ => true
  | .holdRegistry .. => true
  | _ => false

def publishes (p : Program) : Operation → List (ResolverId × Publication)
  | .reload i => (p.reloadDocument i).2.toOption.toList.map (i, ·)
  | _ => []

end Operation

def Operation.changesFiles : Operation → Bool
  | .changeFiles _ => true
  | .removeDirectory _ => true
  | _ => false

/-! ## Resolvers -/

/-- What an operation makes of the resolvers of a program. -/
inductive Reresolved (op : Operation) (p : Program) : List Resolver → Prop
  | same : Reresolved op p p.resolvers
  | changed {i : ResolverId} {f : Resolver → Resolver} : op.owner? = some (.resolver i) →
    (∀ r, (f r).watch = r.watch ∨ (f r).watch = .stopped ∨
      (f r).watch = .watching p.watches.length ∧ ∃ notifier hasRuntime,
        op = .startWatch i notifier hasRuntime) →
    ((∀ r, (f r).live = r.live ∧ (f r).latest = r.latest) ∨ op = .reload i) →
    Reresolved op p (p.resolvers.modify i f)
  | made {source : Option Source} {facts : Facts} {d : Document} :
    Reresolved op p (p.resolvers ++ [.create source facts d])

theorem reresolved_modifyRegistry {op : Operation} {p : Program} {owner : Owner}
    (acts : op.owner? = some owner) (f : Registry → Registry) :
    Reresolved op p (p.modifyRegistry owner f).resolvers := by
  cases owner with
  | resolver i => exact .changed acts (fun _ => .inl rfl) (.inl fun _ => ⟨rfl, rfl⟩)
  | registry i => exact .same

theorem reresolved_effect (op : Operation) (p : Program) :
    Reresolved op p (op.effect p).resolvers := by
  cases op with
  | register owner callback => exact reresolved_modifyRegistry rfl _
  | cancel owner handle => exact reresolved_modifyRegistry rfl _
  | reload i =>
    show Reresolved _ p (p.reloadDocument i).1.resolvers
    cases answered : p.reloadDocument i with
    | mk q answer =>
      cases answer with
      | error fault =>
        obtain rfl := reloadDocument_eq_error answered
        exact .same
      | ok published =>
        obtain ⟨r, source, found, -, -, -, rfl⟩ := reloadDocument_eq_ok answered
        simp only [publish, found]
        exact .changed rfl (fun _ => .inl rfl) (.inr rfl)
  | removeDirectory path =>
    simp only [Operation.effect, Program.removeDirectory]
    split <;> exact .same
  | openFile path format facts =>
    show Reresolved _ p (p.openFile path format facts).1.resolvers
    rcases p.openFile_eq path format facts with ⟨fault, -, opened⟩ | ⟨d, -, opened⟩
    · rw [opened]
      exact .same
    · rw [opened]
      exact .made
  | openDocument d facts => exact .made
  | startWatch i notifier hasRuntime =>
    show Reresolved _ p (p.startWatch i notifier hasRuntime).1.resolvers
    rcases p.startWatch_eq i notifier hasRuntime with
      ⟨fault, refused⟩ | ⟨source, q, hears, -, -, subscribed, started⟩
    · rw [refused]
      exact .same
    · rw [started]
      have state (r : Resolver) :
          ({ r with watch := .watching p.watches.length } : Resolver).watch =
            .watching p.watches.length := rfl
      rcases subscribe_eq_ok subscribed with rfl | ⟨path, directory, rfl⟩
      · exact .changed rfl (fun r => .inr (.inr ⟨state r, notifier, hasRuntime, rfl⟩))
          (.inl fun _ => ⟨rfl, rfl⟩)
      · exact .changed rfl (fun r => .inr (.inr ⟨state r, notifier, hasRuntime, rfl⟩))
          (.inl fun _ => ⟨rfl, rfl⟩)
  | requestStop i =>
    simp only [Operation.effect, Program.requestStop]
    split
    · exact .changed rfl (fun _ => .inr (.inl rfl)) (.inl fun _ => ⟨rfl, rfl⟩)
    · exact .same
  | send w event =>
    simp only [Operation.effect, Program.send]
    split <;> exact .same
  | endTask w =>
    show Reresolved _ p (p.endTask w).resolvers
    rw [resolvers_endTask]
    exact .same
  | _ => exact .same

theorem Operation.length_resolvers_le (op : Operation) (p : Program) :
    p.resolvers.length ≤ (op.effect p).resolvers.length := by
  have resolved := reresolved_effect op p
  generalize (op.effect p).resolvers = resolvers at resolved
  cases resolved with
  | same => exact Nat.le_refl _
  | changed => exact Nat.le_of_eq (List.length_modify ..).symm
  | made => exact List.length_append ▸ Nat.le_add_right ..

/-- An operation that does not act on a resolver leaves it as it is. -/
theorem Operation.resolver_effect {op : Operation} {p : Program} {i : ResolverId}
    (foreign : op.owner? ≠ some (.resolver i)) (exist : i < p.resolvers.length) :
    (op.effect p).resolvers[i]? = p.resolvers[i]? := by
  have resolved := reresolved_effect op p
  generalize (op.effect p).resolvers = resolvers at resolved
  cases resolved with
  | same => rfl
  | @changed j f acts _ _ =>
    have other : j ≠ i := by
      rintro rfl
      exact foreign acts
    exact List.getElem?_modify_ne f _ other
  | made => exact List.getElem?_append_left exist

/-- Documents change by reloads only. -/
theorem Operation.document_before {op : Operation} {p : Program} (other : ∀ i, op ≠ .reload i)
    {i : ResolverId} {r : Resolver} (found : (op.effect p).resolvers[i]? = some r) :
    (∃ before, p.resolvers[i]? = some before ∧ r.live = before.live ∧ r.latest = before.latest) ∨
      p.resolvers[i]? = none ∧ r.live = r.latest.document ∧ r.latest.number = 0 := by
  have resolved := reresolved_effect op p
  generalize (op.effect p).resolvers = resolvers at resolved found
  cases resolved with
  | same => exact .inl ⟨r, found, rfl, rfl⟩
  | @changed j f _ _ documents =>
    rw [List.getElem?_modify] at found
    obtain ⟨before, held, rfl⟩ := Option.map_eq_some_iff.1 found
    refine .inl ⟨before, held, ?_⟩
    split
    · exact documents.resolve_right (other j) before
    · exact ⟨rfl, rfl⟩
  | made =>
    rcases Nat.lt_or_ge i p.resolvers.length with exist | new
    · rw [List.getElem?_append_left exist] at found
      exact .inl ⟨r, found, rfl, rfl⟩
    · rw [List.getElem?_append_right new, List.getElem?_singleton] at found
      split at found
      · cases found
        exact .inr ⟨List.getElem?_eq_none new, rfl, rfl⟩
      · cases found

/-- A watch becomes the current one of a resolver where it is started. -/
theorem Operation.watching_effect {op : Operation} {p : Program} {i : ResolverId} {r : Resolver}
    {w : WatchId} (found : (op.effect p).resolvers[i]? = some r)
    (watching : r.watch = .watching w) :
    (∃ before, p.resolvers[i]? = some before ∧ before.watch = .watching w) ∨
      w = p.watches.length ∧ ∃ notifier hasRuntime, op = .startWatch i notifier hasRuntime := by
  have resolved := reresolved_effect op p
  generalize (op.effect p).resolvers = resolvers at resolved found
  cases resolved with
  | same => exact .inl ⟨r, found, watching⟩
  | @changed j f acts state _ =>
    rw [List.getElem?_modify] at found
    obtain ⟨before, held, rfl⟩ := Option.map_eq_some_iff.1 found
    by_cases same : j = i
    · subst same
      rw [if_pos rfl] at watching
      rcases state before with kept | stopped | ⟨started, begun⟩
      · exact .inl ⟨before, held, kept.symm.trans watching⟩
      · cases stopped.symm.trans watching
      · cases started.symm.trans watching
        exact .inr ⟨rfl, begun⟩
    · rw [if_neg same] at watching
      exact .inl ⟨before, held, watching⟩
  | made =>
    rcases Nat.lt_or_ge i p.resolvers.length with exist | new
    · rw [List.getElem?_append_left exist] at found
      exact .inl ⟨r, found, watching⟩
    · rw [List.getElem?_append_right new, List.getElem?_singleton] at found
      split at found
      · cases found
        cases watching
      · cases found

/-- What a reload answers depends on the resolver and on the files. -/
theorem Program.snd_reloadDocument_congr {p q : Program} {i : ResolverId}
    (files : q.files = p.files) (resolver : q.resolvers[i]? = p.resolvers[i]?) :
    (q.reloadDocument i).2 = (p.reloadDocument i).2 := by
  unfold Program.reloadDocument
  rw [resolver, files]
  cases p.resolvers[i]? with
  | none => rfl
  | some r =>
    cases source : r.source with
    | none => simp only [source]
    | some source' =>
      simp only [source]
      cases source'.load p.files <;> rfl

/-! ## Watches -/

/-- Once a task has ended, no event waits for it. -/
def Watch.Drained (watch : Watch) : Prop := watch.running = false → watch.events = []

/-- What an operation makes of the watches of a program. -/
inductive Rewatched (op : Operation) (p : Program) : List Watch → Prop
  | same : Rewatched op p p.watches
  | changed {w : WatchId} {f : Watch → Watch} :
    (op.watch? = some w ∨ ∃ i r, op = .requestStop i ∧ p.resolvers[i]? = some r ∧
      r.watch = .watching w) →
    (∀ watch, (f watch).resolver = watch.resolver) →
    (∀ watch, ∀ published ∈ (f watch).published,
      published ∈ watch.published ∨ op = .queue w published) →
    (∀ watch, watch.running = false → (f watch).running = false) →
    (∀ watch, p.watches[w]? = some watch → watch.Drained → (f watch).Drained) →
    Rewatched op p (p.watches.modify w f)
  | forgotten {path : String} {names : List String} : op = .removeDirectory path →
    Rewatched op p (p.watches.map (·.forget names))
  | started {i : ResolverId} {notifier : Source → Notifier} {hasRuntime : Bool}
    {hears : Option (List String)} : op = .startWatch i notifier hasRuntime →
    Rewatched op p (p.watches ++ [{ resolver := i, hears }])

theorem rewatched_effect (op : Operation) (p : Program) : Rewatched op p (op.effect p).watches := by
  cases op with
  | register owner callback => cases owner <;> exact .same
  | cancel owner handle => cases owner <;> exact .same
  | reload i =>
    show Rewatched _ p (p.reloadDocument i).1.watches
    cases answered : p.reloadDocument i with
    | mk q answer =>
      cases answer with
      | error fault =>
        obtain rfl := reloadDocument_eq_error answered
        exact .same
      | ok published =>
        obtain ⟨r, source, -, -, -, -, rfl⟩ := reloadDocument_eq_ok answered
        rw [watches_publish]
        exact .same
  | removeDirectory path =>
    simp only [Operation.effect, Program.removeDirectory]
    split
    · exact .forgotten rfl
    · exact .same
  | openFile path format facts =>
    show Rewatched _ p (p.openFile path format facts).1.watches
    rcases p.openFile_eq path format facts with ⟨fault, -, opened⟩ | ⟨d, -, opened⟩ <;>
    · rw [opened]
      exact .same
  | startWatch i notifier hasRuntime =>
    show Rewatched _ p (p.startWatch i notifier hasRuntime).1.watches
    rcases p.startWatch_eq i notifier hasRuntime with
      ⟨fault, refused⟩ | ⟨source, q, hears, -, -, subscribed, started⟩
    · rw [refused]
      exact .same
    · rw [started]
      rcases subscribe_eq_ok subscribed with rfl | ⟨path, directory, rfl⟩ <;> exact .started rfl
  | requestStop i =>
    simp only [Operation.effect, Program.requestStop]
    split
    · rename_i w watching
      obtain ⟨r, found, state⟩ := Option.map_eq_some_iff.1 watching
      exact .changed (.inr ⟨i, r, rfl, found, state⟩) (fun _ => rfl) (fun _ _ member => .inl member)
        (fun _ => id) fun _ _ => id
    · exact .same
  | send w event =>
    simp only [Operation.effect, Program.send]
    split
    · rename_i accepts
      refine .changed (.inl rfl) (fun _ => rfl) (fun _ _ member => .inl member) (fun _ => id) ?_
      intro watch found _ ended
      -- A watch whose task has ended would not have accepted the event.
      rw [found, Option.any_some, Watch.accepts, show watch.running = false from ended] at accepts
      cases accepts
    · exact .same
  | close w =>
    exact .changed (.inl rfl) (fun _ => rfl) (fun _ _ member => .inl member) (fun _ => id)
      fun _ _ => id
  | takeEvent w =>
    exact .changed (.inl rfl) (fun _ => rfl) (fun _ _ member => .inl member) (fun _ => id)
      fun _ _ drained ended => congrArg List.tail (drained ended)
  | endTask w =>
    simp only [Operation.effect, Program.endTask]
    split
    · split
      · exact .changed (.inl rfl) (fun _ => rfl) (fun _ _ member => .inl member) (fun _ _ => rfl)
          fun _ _ _ _ => rfl
      · exact .same
    · exact .same
  | queue w published =>
    refine .changed (.inl rfl) (fun _ => rfl) (fun watch other member => ?_) (fun _ => id)
      fun _ _ => id
    exact (List.mem_append.1 member).imp_right fun last =>
      congrArg (Operation.queue w) (List.mem_singleton.1 last).symm
  | takePublication w =>
    exact .changed (.inl rfl) (fun _ => rfl)
      (fun _ _ member => .inl (List.mem_of_mem_tail member)) (fun _ => id) fun _ _ => id
  | discard w =>
    exact .changed (.inl rfl) (fun _ => rfl)
      (fun _ _ member => absurd member List.not_mem_nil) (fun _ => id) fun _ _ => id
  | _ => exact .same

/-- Watches stay, each with the resolver that it was started for. -/
theorem Operation.watch_stays (op : Operation) {p : Program} {w : WatchId} {before : Watch}
    (found : p.watches[w]? = some before) :
    ∃ watch, (op.effect p).watches[w]? = some watch ∧ watch.resolver = before.resolver := by
  have rewatched := rewatched_effect op p
  generalize (op.effect p).watches = watches at rewatched
  cases rewatched with
  | same => exact ⟨before, found, rfl⟩
  | @changed v f _ resolver _ _ _ =>
    refine ⟨if v = w then f before else before, ?_, ?_⟩
    · rw [List.getElem?_modify, found]
      rfl
    · split
      · exact resolver before
      · rfl
  | forgotten =>
    rw [List.getElem?_map, found]
    exact ⟨_, rfl, rfl⟩
  | started =>
    have exist := (List.getElem?_eq_some_iff.1 found).1
    exact ⟨before, (List.getElem?_append_left exist).trans found, rfl⟩

theorem Operation.length_watches_le (op : Operation) (p : Program) :
    p.watches.length ≤ (op.effect p).watches.length := by
  have rewatched := rewatched_effect op p
  generalize (op.effect p).watches = watches at rewatched
  cases rewatched with
  | same => exact Nat.le_refl _
  | changed => exact Nat.le_of_eq (List.length_modify ..).symm
  | forgotten => exact Nat.le_of_eq (List.length_map _).symm
  | started => exact List.length_append ▸ Nat.le_add_right ..

/-- The reload task of a watch has ended. -/
def Program.Ended (p : Program) (w : WatchId) : Prop :=
  ∃ watch, p.watches[w]? = some watch ∧ watch.running = false

/-- A task that has ended does not start again. -/
theorem Program.Ended.effect {p : Program} {w : WatchId} (ended : p.Ended w) (op : Operation) :
    (op.effect p).Ended w := by
  obtain ⟨before, found, ended⟩ := ended
  have rewatched := rewatched_effect op p
  unfold Program.Ended
  generalize (op.effect p).watches = watches at rewatched ⊢
  cases rewatched with
  | same => exact ⟨before, found, ended⟩
  | @changed v f _ _ _ stays _ =>
    refine ⟨if v = w then f before else before, ?_, ?_⟩
    · rw [List.getElem?_modify, found]
      rfl
    · split
      · exact stays before ended
      · exact ended
  | forgotten =>
    rw [List.getElem?_map, found]
    exact ⟨_, rfl, ended⟩
  | started =>
    have exist := (List.getElem?_eq_some_iff.1 found).1
    exact ⟨before, (List.getElem?_append_left exist).trans found, ended⟩

theorem Operation.drained_effect (op : Operation) {p : Program}
    (drained : ∀ watch ∈ p.watches, watch.Drained) :
    ∀ watch ∈ (op.effect p).watches, watch.Drained := by
  have rewatched := rewatched_effect op p
  generalize (op.effect p).watches = watches at rewatched
  cases rewatched with
  | same => exact drained
  | @changed w f _ _ _ _ drains =>
    intro watch member
    obtain ⟨v, found⟩ := List.mem_iff_getElem?.1 member
    rw [List.getElem?_modify] at found
    obtain ⟨before, held, rfl⟩ := Option.map_eq_some_iff.1 found
    have earlier := drained before (List.mem_of_getElem? held)
    split
    · rename_i same
      exact drains before (same ▸ held) earlier
    · exact earlier
  | forgotten =>
    intro watch member
    obtain ⟨before, held, rfl⟩ := List.mem_map.1 member
    exact drained before held
  | started =>
    intro watch member
    rcases List.mem_append.1 member with before | new
    · exact drained watch before
    · obtain rfl := List.mem_singleton.1 new
      exact fun ended => by cases ended

/-- Where a watch comes from, with all that waits for its dispatcher. -/
theorem Operation.watch_before {op : Operation} {p : Program} {w : WatchId} {watch : Watch}
    (found : (op.effect p).watches[w]? = some watch) :
    (∃ before, p.watches[w]? = some before ∧ watch.resolver = before.resolver ∧
      ∀ published ∈ watch.published, published ∈ before.published ∨ op = .queue w published) ∨
    watch.published = [] ∧
      ∃ notifier hasRuntime, op = .startWatch watch.resolver notifier hasRuntime := by
  have rewatched := rewatched_effect op p
  generalize (op.effect p).watches = watches at rewatched found
  cases rewatched with
  | same => exact .inl ⟨watch, found, rfl, fun _ member => .inl member⟩
  | @changed v f _ resolver queues =>
    rw [List.getElem?_modify] at found
    obtain ⟨before, held, rfl⟩ := Option.map_eq_some_iff.1 found
    refine .inl ⟨before, held, ?_⟩
    by_cases same : v = w
    · subst same
      rw [if_pos rfl]
      exact ⟨resolver before, queues before⟩
    · rw [if_neg same]
      exact ⟨rfl, fun _ member => .inl member⟩
  | forgotten =>
    rw [List.getElem?_map] at found
    obtain ⟨before, held, rfl⟩ := Option.map_eq_some_iff.1 found
    exact .inl ⟨before, held, rfl, fun _ member => .inl member⟩
  | started begun =>
    rcases Nat.lt_or_ge w p.watches.length with exist | new
    · rw [List.getElem?_append_left exist] at found
      exact .inl ⟨watch, found, rfl, fun _ member => .inl member⟩
    · rw [List.getElem?_append_right new, List.getElem?_singleton] at found
      split at found
      · cases found
        exact .inr ⟨rfl, _, _, begun⟩
      · cases found

/-! ## Callbacks and registries -/

/-- Neither a registry, nor a callback, nor a mark has changed. -/
structure SameCallbacks (p q : Program) : Prop where
  registry : ∀ owner, q.registry owner = p.registry owner
  callbacks : q.callbacks = p.callbacks
  journal : q.journal = p.journal

theorem Program.Unmarked.sameCallbacks {p q : Program} (h : Unmarked p q) : SameCallbacks p q :=
  ⟨h.registry, h.callbacks, h.journal⟩

/-- Whether an operation is one of callbacks. -/
def Operation.marks : Operation → Bool
  | .mark _ => true
  | .enter .. => true
  | .register .. => true
  | .cancel .. => true
  | _ => false

theorem sameCallbacks_effect {op : Operation} (other : op.marks = false) (p : Program) :
    SameCallbacks p (op.effect p) := by
  have kept {q : Program} (resolvers : q.resolvers = p.resolvers)
      (registries : q.registries = p.registries) (callbacks : q.callbacks = p.callbacks)
      (journal : q.journal = p.journal) : SameCallbacks p q := by
    refine ⟨fun owner => ?_, callbacks, journal⟩
    cases owner with
    | resolver i => rw [Program.registry, Program.registry, resolvers]
    | registry i => rw [Program.registry, Program.registry, registries]
  cases op with
  | mark m => cases other
  | enter c m => cases other
  | register owner callback => cases other
  | cancel owner handle => cases other
  | reload i =>
    show SameCallbacks p (p.reloadDocument i).1
    cases answered : p.reloadDocument i with
    | mk q answer =>
      cases answer with
      | error fault =>
        obtain rfl := reloadDocument_eq_error answered
        exact kept rfl rfl rfl rfl
      | ok published =>
        obtain ⟨r, source, -, -, -, -, rfl⟩ := reloadDocument_eq_ok answered
        exact (Unmarked.publish p i _).sameCallbacks
  | removeDirectory path =>
    simp only [Operation.effect, Program.removeDirectory]
    split <;> exact kept rfl rfl rfl rfl
  | openFile path format facts =>
    show SameCallbacks p (p.openFile path format facts).1
    rcases p.openFile_eq path format facts with ⟨fault, -, opened⟩ | ⟨d, -, opened⟩
    · rw [opened]
      exact kept rfl rfl rfl rfl
    · rw [opened]
      exact ((Unmarked.note p _).trans (Unmarked.addResolver _ rfl)).sameCallbacks
  | openDocument d facts => exact (Unmarked.addResolver p rfl).sameCallbacks
  | addRegistry => exact (Unmarked.addRegistry p).sameCallbacks
  | startWatch i notifier hasRuntime =>
    show SameCallbacks p (p.startWatch i notifier hasRuntime).1
    rcases p.startWatch_eq i notifier hasRuntime with
      ⟨fault, refused⟩ | ⟨source, q, hears, -, -, subscribed, started⟩
    · rw [refused]
      exact kept rfl rfl rfl rfl
    · rw [started]
      have launched (q : Program) (d : Diagnostic) : Unmarked q ((q.launch i hears).log d) :=
        (Unmarked.launch q i hears).trans (Unmarked.note _ _)
      rcases subscribe_eq_ok subscribed with rfl | ⟨path, directory, rfl⟩
      · exact (launched _ _).sameCallbacks
      · exact ((Unmarked.note p _).trans (launched _ _)).sameCallbacks
  | requestStop i => exact (Unmarked.requestStop p i).sameCallbacks
  | send w event =>
    simp only [Operation.effect, Program.send]
    split <;> exact kept rfl rfl rfl rfl
  | endTask w => exact (Unmarked.endTask p w).sameCallbacks
  | _ => exact kept rfl rfl rfl rfl

/-- A callback counts its runs when it is entered. -/
theorem Operation.callback_effect {op : Operation} {p : Program} {c : CallbackId}
    {called : CallbackRecord} (found : p.callbacks[c]? = some called)
    (other : ∀ m, op ≠ .enter c m) : (op.effect p).callbacks[c]? = some called := by
  cases marks : op.marks with
  | false => rw [(sameCallbacks_effect marks p).callbacks, found]
  | true =>
    cases op with
    | mark m => exact found
    | enter d m =>
      have hne : d ≠ c := fun same => other m (same ▸ rfl)
      exact (List.getElem?_modify_ne _ _ hne).trans found
    | register owner callback =>
      have exist := (List.getElem?_eq_some_iff.1 found).1
      show (p.register owner callback).1.callbacks[c]? = _
      rw [callbacks_register, List.getElem?_append_left exist, found]
    | cancel owner handle => cases owner <;> exact found
    | _ => cases marks

/-- Callbacks stay what they are, whatever they count. -/
theorem Operation.callback_stays (op : Operation) {p : Program} {c : CallbackId}
    {called : CallbackRecord} (found : p.callbacks[c]? = some called) :
    ∃ later, (op.effect p).callbacks[c]? = some later ∧ later.callback = called.callback := by
  by_cases entered : ∃ m, op = .enter c m
  · obtain ⟨m, rfl⟩ := entered
    refine ⟨{ called with runs := called.runs + 1 }, ?_, rfl⟩
    show (p.callbacks.modify c _)[c]? = _
    rw [List.getElem?_modify_eq, found]
    rfl
  · exact ⟨called, callback_effect found fun m same => entered ⟨m, same⟩, rfl⟩

/-- Marks are only added, and they are about the owner that an operation acts on. -/
theorem Operation.journal_effect (op : Operation) (p : Program) :
    ∃ new, (op.effect p).journal = new ++ p.journal ∧
      ∀ m ∈ new, ∀ owner, m.owner? = some owner → op.owner? = some owner := by
  have one {m : Mark} (own : ∀ owner, m.owner? = some owner → op.owner? = some owner)
      (marked : (op.effect p).journal = m :: p.journal) : ∃ new,
      (op.effect p).journal = new ++ p.journal ∧
        ∀ m ∈ new, ∀ owner, m.owner? = some owner → op.owner? = some owner :=
    ⟨[m], marked, List.forall_mem_singleton.2 own⟩
  cases marks : op.marks with
  | false => exact ⟨[], (sameCallbacks_effect marks p).journal, fun m member => by cases member⟩
  | true =>
    cases op with
    | mark m => exact one (fun _ => id) rfl
    | enter d m => exact one (fun _ => id) rfl
    | register owner callback => cases owner <;> exact one (fun _ => id) rfl
    | cancel owner handle => cases owner <;> exact one (fun _ => id) rfl
    | _ => cases marks

theorem Operation.mark_stays (op : Operation) {p : Program} {m : Mark} (member : m ∈ p.journal) :
    m ∈ (op.effect p).journal := by
  obtain ⟨new, marked, -⟩ := op.journal_effect p
  exact marked ▸ List.mem_append_right _ member

theorem Registry.mem_live_register {r : Registry} {c : CallbackId} {slot : Nat × CallbackId}
    (member : slot ∈ (r.register c).live) : slot = (r.size, c) ∨ slot ∈ r.live := by
  rcases Registry.getElem?_register.1 (Registry.mem_live.1 member) with ⟨new, same⟩ | old
  · exact .inl (Prod.ext new.symm same.symm)
  · exact .inr (Registry.mem_live.2 old)

theorem Registry.mem_live_cancel {r : Registry} {handle : Nat} {slot : Nat × CallbackId}
    (member : slot ∈ (r.cancel handle).live) : slot ∈ r.live :=
  Registry.mem_live.2 (Registry.getElem?_cancel.1 (Registry.mem_live.1 member)).2

theorem Program.registry_of_not_has {p : Program} {owner : Owner} (none : ¬p.Has owner) :
    p.registry owner = {} := by
  cases owner with
  | resolver i => simp [Program.registry, List.getElem?_eq_none (Nat.not_lt.1 none)]
  | registry i => simp [Program.registry, List.getElem?_eq_none (Nat.not_lt.1 none)]

theorem Program.has_register (p : Program) (owner : Owner) (callback : Callback) (other : Owner) :
    (p.register owner callback).1.Has other ↔ p.Has other := by
  cases owner <;> cases other <;>
    simp [Program.register, Program.modifyRegistry, Program.modifyResolver, Program.mark, Has]

/-- A callback that is live was so before, unless it has just been registered. -/
theorem Operation.live_before {op : Operation} {p : Program} {owner : Owner}
    {slot : Nat × CallbackId} (member : slot ∈ ((op.effect p).registry owner).live) :
    slot ∈ (p.registry owner).live ∨
      ∃ callback, op = .register owner callback ∧
        slot = ((p.registry owner).size, p.callbacks.length) := by
  cases marks : op.marks with
  | false => exact .inl ((sameCallbacks_effect marks p).registry owner ▸ member)
  | true =>
    cases op with
    | mark m => cases owner <;> exact .inl member
    | enter d m => cases owner <;> exact .inl member
    | register other callback =>
      have now : slot ∈ ((p.register other callback).1.registry owner).live := member
      by_cases known : p.Has other
      · rw [registry_register p known] at now
        split at now
        · rename_i same
          subst same
          rcases Registry.mem_live_register now with new | old
          · exact .inr ⟨callback, rfl, new⟩
          · exact .inl old
        · exact .inl now
      · refine .inl ?_
        -- An owner that does not exist has no callbacks, before or after.
        by_cases same : other = owner
        · subst same
          rw [registry_of_not_has (mt (p.has_register other callback other).1 known)] at now
          cases now
        · have kept : (p.register other callback).1.registry owner =
              (p.modifyRegistry other (·.register p.callbacks.length)).registry owner := by
            cases owner <;> rfl
          rwa [kept, registry_modifyRegistry_ne p same] at now
    | cancel other handle =>
      have now : slot ∈ ((p.cancel other handle).registry owner).live := member
      rw [registry_cancel] at now
      split at now
      · rename_i same
        subst same
        exact .inl (Registry.mem_live_cancel now)
      · exact .inl now
    | _ => cases marks

/-! ## References -/

/-- Names refer to the same settings and registries, and the same is installed. -/
structure SameReferences (p q : Program) : Prop where
  settings : q.names.settings = p.names.settings
  registries : q.names.registries = p.names.registries
  installed : q.installed = p.installed

theorem sameReferences_effect {op : Operation} (fixed : op.refers = false) (p : Program) :
    SameReferences p (op.effect p) := by
  have same : SameReferences p p := ⟨rfl, rfl, rfl⟩
  cases op with
  | holdSettings name i => cases fixed
  | dropSettings name => cases fixed
  | install installed => cases fixed
  | holdRegistry name i => cases fixed
  | register owner callback => cases owner <;> exact ⟨rfl, rfl, rfl⟩
  | cancel owner handle => cases owner <;> exact ⟨rfl, rfl, rfl⟩
  | reload i =>
    show SameReferences p (p.reloadDocument i).1
    cases answered : p.reloadDocument i with
    | mk q answer =>
      cases answer with
      | error fault => exact reloadDocument_eq_error answered ▸ same
      | ok published =>
        obtain ⟨r, source, found, -, -, -, rfl⟩ := reloadDocument_eq_ok answered
        simp only [publish, found]
        exact ⟨rfl, rfl, rfl⟩
  | removeDirectory path =>
    simp only [Operation.effect, Program.removeDirectory]
    split <;> exact ⟨rfl, rfl, rfl⟩
  | openFile path format facts =>
    show SameReferences p (p.openFile path format facts).1
    rcases p.openFile_eq path format facts with ⟨fault, -, opened⟩ | ⟨d, -, opened⟩ <;>
    · rw [opened]
      exact ⟨rfl, rfl, rfl⟩
  | startWatch i notifier hasRuntime =>
    show SameReferences p (p.startWatch i notifier hasRuntime).1
    rcases p.startWatch_eq i notifier hasRuntime with
      ⟨fault, refused⟩ | ⟨source, q, hears, -, -, subscribed, started⟩
    · rw [refused]
      exact same
    · rw [started]
      rcases subscribe_eq_ok subscribed with rfl | ⟨path, directory, rfl⟩ <;> exact ⟨rfl, rfl, rfl⟩
  | requestStop i =>
    simp only [Operation.effect, Program.requestStop]
    split <;> exact ⟨rfl, rfl, rfl⟩
  | send w event =>
    simp only [Operation.effect, Program.send]
    split <;> exact ⟨rfl, rfl, rfl⟩
  | endTask w =>
    simp only [Operation.effect, Program.endTask]
    split
    · split <;> exact ⟨rfl, rfl, rfl⟩
    · exact same
  | _ => exact ⟨rfl, rfl, rfl⟩

theorem SameReferences.inUse {p q : Program} (same : SameReferences p q) (i : ResolverId) :
    q.inUse i = p.inUse i := by
  rw [Program.inUse, Program.inUse, same.settings, same.installed]

theorem SameReferences.trans {p q r : Program} (h : SameReferences p q) (h' : SameReferences q r) :
    SameReferences p r :=
  ⟨h'.settings.trans h.settings, h'.registries.trans h.registries,
    h'.installed.trans h.installed⟩

theorem SameReferences.reached {p q : Program} (same : SameReferences p q) (access : Access) :
    q.reached access = p.reached access := by
  cases access with
  | named name => rw [Program.reached, Program.reached, same.settings]
  | installed => exact same.installed

/-- What is in use was so before, unless it has just been taken hold of. -/
theorem Operation.inUse_before {op : Operation} {p : Program} {i : ResolverId}
    (inUse : (op.effect p).inUse i = true) :
    p.inUse i = true ∨ (∃ name, op = .holdSettings name i) ∨ op = .install (some i) := by
  cases refers : op.refers with
  | false => exact .inl ((sameReferences_effect refers p).inUse i ▸ inUse)
  | true =>
    cases op with
    | holdSettings name j =>
      rcases Bool.or_eq_true .. ▸ inUse with held | installed
      · obtain ⟨entry, member, same⟩ := List.any_eq_true.1 held
        rcases KeyMap.mem_insert member with rfl | member
        · exact .inr (.inl ⟨name, congrArg _ (of_decide_eq_true same)⟩)
        · exact .inl (Bool.or_eq_true .. ▸ .inl (List.any_eq_true.2 ⟨entry, member, same⟩))
      · exact .inl (Bool.or_eq_true .. ▸ .inr installed)
    | dropSettings name =>
      rcases Bool.or_eq_true .. ▸ inUse with held | installed
      · obtain ⟨entry, member, same⟩ := List.any_eq_true.1 held
        have before := KeyMap.mem_of_mem_erase member
        exact .inl (Bool.or_eq_true .. ▸ .inl (List.any_eq_true.2 ⟨entry, before, same⟩))
      · exact .inl (Bool.or_eq_true .. ▸ .inr installed)
    | install installed =>
      rcases Bool.or_eq_true .. ▸ inUse with held | installed
      · exact .inl (Bool.or_eq_true .. ▸ .inl held)
      · exact .inr (.inr (congrArg _ (of_decide_eq_true installed)))
    | holdRegistry name j => exact .inl inUse
    | _ => cases refers

/-! ## Files -/

theorem Operation.files_effect {op : Operation} (kept : op.changesFiles = false) (p : Program) :
    (op.effect p).files = p.files := by
  cases op with
  | changeFiles change => cases kept
  | removeDirectory path => cases kept
  | register owner callback => cases owner <;> rfl
  | cancel owner handle => cases owner <;> rfl
  | reload i =>
    show (p.reloadDocument i).1.files = p.files
    cases answered : p.reloadDocument i with
    | mk q answer =>
      cases answer with
      | error fault => exact reloadDocument_eq_error answered ▸ rfl
      | ok published =>
        obtain ⟨r, source, found, -, -, -, rfl⟩ := reloadDocument_eq_ok answered
        simp only [publish, found]
        rfl
  | openFile path format facts =>
    show (p.openFile path format facts).1.files = p.files
    rcases p.openFile_eq path format facts with ⟨fault, -, opened⟩ | ⟨d, -, opened⟩
    · rw [opened]
    · rw [opened]
      rfl
  | startWatch i notifier hasRuntime =>
    show (p.startWatch i notifier hasRuntime).1.files = p.files
    rcases p.startWatch_eq i notifier hasRuntime with
      ⟨fault, refused⟩ | ⟨source, q, hears, -, -, subscribed, started⟩
    · rw [refused]
    · rw [started]
      rcases subscribe_eq_ok subscribed with rfl | ⟨path, directory, rfl⟩ <;> rfl
  | requestStop i =>
    simp only [Operation.effect, Program.requestStop]
    split <;> rfl
  | send w event =>
    simp only [Operation.effect, Program.send]
    split <;> rfl
  | endTask w => exact files_endTask p w
  | _ => rfl

/-! ## Handles of settings -/

/-- A program with other handles of its resolvers. -/
def Program.withHandles (p : Program) (settings : KeyMap ResolverId)
    (installed : Option ResolverId) : Program :=
  { p with names := { p.names with settings }, installed }

namespace Program

variable (p : Program) (settings : KeyMap ResolverId) (installed : Option ResolverId)

theorem reloadDocument_withHandles (i : ResolverId) :
    (p.withHandles settings installed).reloadDocument i =
      ((p.reloadDocument i).1.withHandles settings installed, (p.reloadDocument i).2) := by
  have resolvers : (p.withHandles settings installed).resolvers = p.resolvers := rfl
  have files : (p.withHandles settings installed).files = p.files := rfl
  unfold reloadDocument
  rw [resolvers, files]
  cases found : p.resolvers[i]? with
  | none => rfl
  | some r =>
    cases source : r.source with
    | none => simp only [source]
    | some source' =>
      simp only [source]
      cases source'.load p.files with
      | error fault => rfl
      | ok d =>
        simp only [publish, resolvers, found]
        rfl

theorem openFile_withHandles (path : String) (format : Option Format) (facts : Facts) :
    (p.withHandles settings installed).openFile path format facts =
      ((p.openFile path format facts).1.withHandles settings installed,
        (p.openFile path format facts).2) := by
  have files : (p.withHandles settings installed).files = p.files := rfl
  unfold openFile
  simp only [files]
  split <;> rfl

theorem subscribe_withHandles (notifier : Notifier) :
    (p.withHandles settings installed).subscribe notifier =
      (p.subscribe notifier).map fun q => (q.1.withHandles settings installed, q.2) := by
  cases notifier with
  | controlled => rfl
  | failing fault => rfl
  | file path watchable =>
    cases watchable <;> rfl

theorem startWatch_withHandles (i : ResolverId) (notifier : Source → Notifier)
    (hasRuntime : Bool) :
    (p.withHandles settings installed).startWatch i notifier hasRuntime =
      ((p.startWatch i notifier hasRuntime).1.withHandles settings installed,
        (p.startWatch i notifier hasRuntime).2) := by
  have resolvers : (p.withHandles settings installed).resolvers = p.resolvers := rfl
  have status : (p.withHandles settings installed).watchStatus i = p.watchStatus i := rfl
  unfold startWatch
  rw [resolvers, status]
  cases p.resolvers[i]?.bind (·.source) with
  | none => rfl
  | some source =>
    dsimp only
    rw [subscribe_withHandles]
    split
    · rfl
    · split
      · rfl
      · cases p.subscribe (notifier source) with
        | error fault => rfl
        | ok subscribed => rfl

end Program

/-- No operation looks at handles, except to change what they refer to. -/
theorem Operation.effect_withHandles {op : Operation} (fixed : op.refers = false) (p : Program)
    (settings : KeyMap ResolverId) (installed : Option ResolverId) :
    op.effect (p.withHandles settings installed) =
      (op.effect p).withHandles settings installed := by
  have watches : (p.withHandles settings installed).watches = p.watches := rfl
  cases op with
  | holdSettings name i => cases fixed
  | dropSettings name => cases fixed
  | install other => cases fixed
  | register owner callback => cases owner <;> rfl
  | cancel owner handle => cases owner <;> rfl
  | reload i => exact congrArg Prod.fst (p.reloadDocument_withHandles settings installed i)
  | removeDirectory path =>
    have files : (p.withHandles settings installed).files = p.files := rfl
    simp only [effect, Program.removeDirectory, files]
    split <;> rfl
  | openFile path format facts =>
    exact congrArg Prod.fst (p.openFile_withHandles settings installed path format facts)
  | startWatch i notifier hasRuntime =>
    exact congrArg Prod.fst (p.startWatch_withHandles settings installed i notifier hasRuntime)
  | requestStop i =>
    have resolvers : (p.withHandles settings installed).resolvers = p.resolvers := rfl
    simp only [effect, Program.requestStop, resolvers]
    split <;> rfl
  | send w event =>
    simp only [effect, Program.send, watches]
    split <;> rfl
  | endTask w =>
    simp only [effect, Program.endTask, watches]
    split
    · split <;> rfl
    · rfl
  | _ => rfl

end LayeredSettings
