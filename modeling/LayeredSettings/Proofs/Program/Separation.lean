import LayeredSettings.Proofs.Program.Handles
import LayeredSettings.Proofs.Program.Sharing

/-!
Resolvers are apart from each other.

As long as no callback of another one acts on a resolver, nothing that is done elsewhere changes its
document, its callbacks, its watch, or what it answers.
-/

namespace LayeredSettings

open Program

/-! ## What spares a resolver -/

/-- A callback acts on nothing that belongs to a resolver. It may look at its version. -/
def SparedBy (p : Program) (j : ResolverId) (callback : Callback) : Prop :=
  ∀ n, (callback n).AsksOnly fun ask => .resolver j ∉ ask.owners p

/-- No callback of others acts on a resolver. -/
def SparedByOthers (p : Program) (j : ResolverId) : Prop :=
  ∀ owner, owner ≠ .resolver j → ∀ slot ∈ (p.registry owner).live, ∀ called,
    p.callbacks[slot.2]? = some called → SparedBy p j called.callback

/-- A step goes through no handle of a resolver, is about none of its watches, changes no files, and
registers no callback that acts on the resolver. -/
structure Action.Spares (p : Program) (j : ResolverId) (a : Action) : Prop where
  settings : ∀ access ∈ a.settings?, p.reached access ≠ some j
  callback : ∀ callback ∈ a.callback?, SparedBy p j callback
  watch : ∀ w ∈ a.watch?, ∀ watch, p.watches[w]? = some watch → watch.resolver ≠ j
  files : a.changesFiles = false

/-- A step through a handle of another resolver. -/
theorem Action.Spares.of_settings {p : Program} {j : ResolverId} {a : Action} {access : Access}
    (goes : a.settings? = some access) (other : p.reached access ≠ some j)
    (callback : ∀ callback ∈ a.callback?, SparedBy p j callback) (watch : a.watch? = none)
    (files : a.changesFiles = false) : a.Spares p j where
  settings _ same := Option.some.inj (goes.symm.trans same) ▸ other
  callback := callback
  watch _ own := by cases watch.symm.trans own
  files := files

/-- A step of a watch of another resolver. -/
theorem Action.Spares.of_watch {p : Program} {j : ResolverId} {a : Action} {w : WatchId}
    (own : a.watch? = some w)
    (other : ∀ watch, p.watches[w]? = some watch → watch.resolver ≠ j)
    (settings : a.settings? = none) (callback : a.callback? = none)
    (files : a.changesFiles = false) : a.Spares p j where
  settings _ same := by cases settings.symm.trans same
  callback _ same := by cases callback.symm.trans same
  watch _ same := Option.some.inj (own.symm.trans same) ▸ other
  files := files

theorem Ask.mem_owners {p : Program} {ask : Ask} {j : ResolverId} :
    .resolver j ∈ ask.owners p ↔
      (∀ name, ask ≠ .version name) ∧ ∃ access, ask.reads? = some access ∧
        p.reached access = some j := by
  cases ask with
  | version name => simp [owners]
  | settings access => simp [owners, reads?]
  | owner name => simp [owners, reads?, ownersNamed, reached]
  | registry name => simp [owners, reads?]
  | rebind access => simp [owners, reads?]

/-- What is known of a program in which a resolver has been spared: nothing that did not refer to it
refers to it now. -/
structure Untouched (p : Program) (j : ResolverId) (q : Program) : Prop where
  exist : j < q.resolvers.length
  ordered : q.names.settings.Ordered
  reached : ∀ access, q.reached access = some j → p.reached access = some j
  watches : p.watches.length ≤ q.watches.length

namespace Untouched

variable {p q : Program} {j : ResolverId} (untouched : Untouched p j q)
include untouched

theorem holdSettings {i : ResolverId} (other : i ≠ j) (name : String) :
    Untouched p j (q.holdSettings name i) where
  exist := untouched.exist
  ordered := untouched.ordered.insert name i
  reached access reached := by
    cases access with
    | named key =>
      have held : (q.names.settings.insert name i).get? key = some j := reached
      rw [KeyMap.get?_insert] at held
      split at held
      · exact absurd (Option.some.inj held) other
      · exact untouched.reached (.named key) held
    | installed => exact untouched.reached .installed reached
  watches := untouched.watches

theorem dropSettings (name : String) :
    Untouched p j ((Operation.dropSettings name).effect q) where
  exist := untouched.exist
  ordered := untouched.ordered.erase name
  reached access reached := by
    cases access with
    | named key =>
      have held : (q.names.settings.erase name).get? key = some j := reached
      by_cases same : name = key
      · subst same
        rw [untouched.ordered.get?_erase_self] at held
        cases held
      · rw [KeyMap.get?_erase_of_ne same] at held
        exact untouched.reached (.named key) held
    | installed => exact untouched.reached .installed reached
  watches := untouched.watches

theorem install {installed : Option ResolverId} (other : installed ≠ some j) :
    Untouched p j { q with installed } where
  exist := untouched.exist
  ordered := untouched.ordered
  reached access reached := by
    cases access with
    | named key => exact untouched.reached (.named key) reached
    | installed => exact absurd reached other
  watches := untouched.watches

end Untouched

/-- Terms under which a resolver is left alone. -/
def Terms.sparing (p : Program) (j : ResolverId) : Terms where
  asks ask := .resolver j ∉ ask.owners p
  owners owner := owner ≠ .resolver j
  watches w := ∀ watch, p.watches[w]? = some watch → watch.resolver ≠ j
  files := False
  refers := Untouched p j
  steady same resolvers watches untouched :=
    { exist := Nat.lt_of_lt_of_le untouched.exist resolvers
      ordered := same.settings ▸ untouched.ordered
      reached := fun access reached => untouched.reached access (same.reached access ▸ reached)
      watches := Nat.le_trans untouched.watches watches }
  named untouched ask spared owner member := by
    rintro rfl
    obtain ⟨acts, access, reads, reached⟩ := Ask.mem_owners.1 member
    exact spared (Ask.mem_owners.2 ⟨acts, access, reads, untouched.reached access reached⟩)
  started untouched watch found := by
    have exist := (List.getElem?_eq_some_iff.1 found).1
    exact absurd exist (Nat.not_lt.2 untouched.watches)
  heard := False.elim
  fresh untouched same := Nat.ne_of_gt untouched.exist (Owner.resolver.inj same)
  hold untouched other _ := untouched.holdSettings (fun same => other (congrArg _ same)) _
  drop untouched _ := untouched.dropSettings _
  install untouched others _ := untouched.install fun same => others j same rfl
  holdRegistry _ _ untouched :=
    ⟨untouched.exist, untouched.ordered, untouched.reached, untouched.watches⟩

theorem Action.Spares.admits {p : Program} {j : ResolverId} {a : Action} (spares : a.Spares p j) :
    (Terms.sparing p j).Admits a where
  rebinds access _ owned := by
    obtain ⟨-, other, reads, -⟩ := Ask.mem_owners.1 owned
    cases reads
  settings access goes owned := by
    obtain ⟨-, other, reads, reached⟩ := Ask.mem_owners.1 owned
    cases reads
    exact spares.settings access goes reached
  registry name _ owned := by
    obtain ⟨-, other, reads, -⟩ := Ask.mem_owners.1 owned
    cases reads
  callback := spares.callback
  watch := spares.watch
  files changes := by cases spares.files.symm.trans changes

/-! ## What stays -/

/-- Everything that belongs to a resolver is as it was. -/
structure Stays (p : Program) (j : ResolverId) (q : Program) : Prop where
  resolver : q.resolvers[j]? = p.resolvers[j]?
  files : q.files = p.files
  watches : ∀ {w : WatchId} {watch : Watch}, watch.resolver = j →
    (q.watches[w]? = some watch ↔ p.watches[w]? = some watch)

theorem Stays.refl (p : Program) (j : ResolverId) : Stays p j p := ⟨rfl, rfl, fun _ => .rfl⟩

theorem Stays.step {p : Program} {j : ResolverId} {t : Scene} {op : Operation}
    (ok : (Terms.sparing p j).Ok t) (stays : Stays p j t.program)
    (allowed : (Terms.sparing p j).Allows t op) : Stays p j (op.effect t.program) where
  resolver := by
    have foreign : op.owner? ≠ some (.resolver j) := fun own => allowed.owner _ own rfl
    exact (Operation.resolver_effect foreign ok.refers.exist).trans stays.resolver
  files := (Operation.files_effect (allowed.keepsFiles id) _).trans stays.files
  watches {w watch} own := by
    have rewatched := rewatched_effect op t.program
    generalize (op.effect t.program).watches = watches at rewatched
    cases rewatched with
    | same => exact stays.watches own
    | @changed v f acts resolver _ _ _ =>
      -- Watches that are acted on are other ones.
      have foreign : (Terms.sparing p j).watches v := by
        rcases acts with acts | ⟨i, r, rfl, found, watching⟩
        · exact allowed.watch v acts
        · exact ok.current (allowed.owner _ rfl) found watching
      by_cases same : v = w
      · subst same
        refine iff_of_false (fun found => ?_) fun found => foreign watch found own
        rw [List.getElem?_modify_eq] at found
        obtain ⟨before, held, rfl⟩ := Option.map_eq_some_iff.1 found
        have own' := (resolver before).symm.trans own
        exact foreign before ((stays.watches own').1 held) own'
      · rw [List.getElem?_modify_ne f _ same]
        exact stays.watches own
    | forgotten removes =>
      subst removes
      exact absurd allowed.fits id
    | @started i notifier hasRuntime hears starts =>
      have owner : op.owner? = some (.resolver i) := by rw [starts]; rfl
      have other : i ≠ j := fun same => allowed.owner _ owner (same ▸ rfl)
      rcases Nat.lt_or_ge w t.program.watches.length with exist | new
      · rw [List.getElem?_append_left exist]
        exact stays.watches own
      · refine iff_of_false (fun found => ?_) fun found => ?_
        · rw [List.getElem?_append_right new, List.getElem?_singleton] at found
          split at found
          · cases found
            exact other own
          · cases found
        · have exist := (List.getElem?_eq_some_iff.1 ((stays.watches own).2 found)).1
          exact absurd exist (Nat.not_lt.2 new)

theorem Program.resolver_of_watching {p : Program} (supervised : p.roster.Supervised)
    {i : ResolverId} {r : Resolver} {w : WatchId} (found : p.resolvers[i]? = some r)
    (watching : r.watch = .watching w) :
    ∃ watch, p.watches[w]? = some watch ∧ watch.resolver = i := by
  have state : p.roster.states[i]? = some (.watching w) := by
    simp [roster, found, watching]
  obtain ⟨task, held, resolver, -⟩ := supervised.current state
  simp only [roster, List.getElem?_map] at held
  obtain ⟨watch, held', rfl⟩ := Option.map_eq_some_iff.1 held
  exact ⟨watch, held', resolver⟩

theorem stays_after {run later : List Action} {j : ResolverId}
    (exist : j < (ofRun run).resolvers.length) (others : SparedByOthers (ofRun run) j)
    (spares : ∀ a ∈ later, a.Spares (ofRun run) j) :
    Stays (ofRun run) j ((ofRun run).after later) := by
  obtain ⟨recorded, -⟩ := lawful_after {} run recorded_start
  have supervised := supervised_ofRun run
  have ok : (Terms.sparing (ofRun run) j).Ok ⟨ofRun run, Terms.waiting (ofRun run)⟩ := by
    refine Terms.ok_of_recorded recorded ?refers others ?watched ?current
    case refers =>
      exact ⟨exist, ordered_settings run, fun _ reached => reached, Nat.le_refl _⟩
    case watched =>
      intro w watch spared found _ same
      exact spared watch found (Owner.resolver.inj same)
    case current =>
      intro i r w other found watching watch held same
      obtain ⟨_, held', own⟩ := resolver_of_watching supervised found watching
      cases held.symm.trans held'
      exact other (congrArg Owner.resolver (own.symm.trans same))
  obtain ⟨t, finished, -, stays⟩ := Terms.ok_after Stays.step ok (.refl _ j) later
    fun a member => (spares a member).admits
  exact finished ▸ stays

/-! ## Answers -/

/-- Whether two programs can be told to give the same answer. A callback that is called at once does
what it likes, and to cancel takes a handle. -/
def Call.Comparable (p q : Program) : Call → Prop
  | .onUpdate _ _ now => now = false
  | .cancel handle => (q.names.handles.get? handle).isSome = (p.names.handles.get? handle).isSome
  | _ => True

namespace Stays

variable {p q : Program} {j : ResolverId} (stays : Stays p j q)
include stays

theorem registry : q.registry (.resolver j) = p.registry (.resolver j) := by
  simp only [Program.registry, stays.resolver]

theorem watchStatus (supervised : p.roster.Supervised) : q.watchStatus j = p.watchStatus j := by
  unfold Program.watchStatus
  rw [stays.resolver]
  cases found : p.resolvers[j]? with
  | none => rfl
  | some r =>
    cases watching : r.watch with
    | idle => simp [watching]
    | stopped => simp [watching]
    | watching w =>
      obtain ⟨watch, held, own⟩ := resolver_of_watching supervised found watching
      simp [watching, isRunning, held, (stays.watches own).2 held]

theorem startWatch (status : q.watchStatus j = p.watchStatus j) (notifier : Source → Notifier)
    (hasRuntime : Bool) : (q.startWatch j notifier hasRuntime).2.map (fun _ => ()) =
      (p.startWatch j notifier hasRuntime).2.map (fun _ => ()) := by
  unfold Program.startWatch
  rw [stays.resolver, status]
  cases p.resolvers[j]?.bind (·.source) with
  | none => rfl
  | some source =>
    dsimp only
    split
    · rfl
    · split
      · rfl
      · cases notifier source with
        | controlled => rfl
        | failing fault => rfl
        | file path watchable =>
          cases watchable <;> rfl

theorem reload : (q.reload j).2 = (p.reload j).2 := by
  have answer (p : Program) :
      (p.reload j).2 = (p.reloadDocument j).2.map fun published => published.document.version := by
    unfold Program.reload reloadWith
    cases p.reloadDocument j with
    | mk q answer => cases answer <;> rfl
  rw [answer, answer, snd_reloadDocument_congr stays.files stays.resolver]

theorem getSafe (path : List String) : (q.getSafe j path).2 = (p.getSafe j path).2 := by
  rw [getSafe_snd, getSafe_snd, stays.resolver]

theorem get (path : List String) : (q.get j path).2 = (p.get j path).2 := by
  rw [get_snd, get_snd, stays.getSafe]

theorem getAs (path : List String) (shape : Shape) :
    (q.getAs j path shape).2 = (p.getAs j path shape).2 := by
  rw [getAs_snd, getAs_snd, stays.get]

theorem stopWatch : (q.stopWatch j).2 = (p.stopWatch j).2 := by
  unfold Program.stopWatch requestStop
  rw [stays.resolver]
  cases p.resolvers[j]? with
  | none => rfl
  | some r => cases state : r.watch <;> simp [state]

theorem onUpdate (callback : Callback) (now : Bool) :
    (q.onUpdate j callback now).2.2 = (p.onUpdate j callback now).2.2 := by
  rw [(registered_onUpdate q j callback now).handle, (registered_onUpdate p j callback now).handle,
    stays.registry]

theorem hasChanged (inUse : q.inUse j = p.inUse j) {receiver : Receiver}
    (own : receiver.resolver = j) : q.hasChanged receiver = p.hasChanged receiver := by
  rw [Program.hasChanged, Program.hasChanged, own, inUse, stays.resolver]

theorem found : Call.found q j = Call.found p j := by
  rw [Call.found, Call.found, stays.resolver]

/-- A resolver that is as it was gives the answers that it gave. -/
theorem answer (status : q.watchStatus j = p.watchStatus j) {c : Call}
    (comparable : c.Comparable p q) : c.answer q j = c.answer p j := by
  cases c with
  | look => exact stays.found
  | clone copy => exact stays.found
  | get path => simp only [Call.answer, stays.get]
  | getSafe path => simp only [Call.answer, stays.getSafe]
  | getAs path shape => simp only [Call.answer, stays.getAs]
  | snapshot copy => simp only [Call.answer, stays.found]
  | onUpdate name callback now =>
    obtain rfl : now = false := comparable
    exact congrArg Except.ok (stays.onUpdate callback false)
  | cancel handle =>
    dsimp only [Call.answer]
    rw [comparable]
  | reload => simp only [Call.answer, stays.reload]
  | subscribe name => simp only [Call.answer, stays.found]
  | watch name notifier hasRuntime => simp only [Call.answer, stays.startWatch status]
  | watchFile hasRuntime =>
    simp only [Call.answer, Program.watchFile, stays.files, stays.startWatch status]
  | stop => simp only [Call.answer, stays.stopWatch]
  | status => simp only [Call.answer, status]
  | install => rfl

end Stays

/-- Nothing of a resolver has changed, nor what it answers through any handle. -/
structure Unaffected (p : Program) (j : ResolverId) (q : Program) : Prop where
  resolver : q.resolvers[j]? = p.resolvers[j]?
  registry : q.registry (.resolver j) = p.registry (.resolver j)
  status : q.watchStatus j = p.watchStatus j
  answers : ∀ (c : Call) (access access' : Access), c.Comparable p q →
    p.reached access = some j → q.reached access' = some j →
    ((c.through access').exec q).1 = ((c.through access).exec p).1
  registrations : ∀ callback now, (q.onUpdate j callback now).2.2 = (p.onUpdate j callback now).2.2
  subscribers : ∀ receiver : Receiver, receiver.resolver = j → q.inUse j = p.inUse j →
    q.hasChanged receiver = p.hasChanged receiver

theorem Stays.unaffected {p q : Program} {j : ResolverId} (stays : Stays p j q)
    (supervised : p.roster.Supervised) : Unaffected p j q where
  resolver := stays.resolver
  registry := stays.registry
  status := stays.watchStatus supervised
  answers c access access' comparable reached reached' := by
    rw [c.exec_through reached', c.exec_through reached, c.fst_exec_on, c.fst_exec_on]
    exact stays.answer (stays.watchStatus supervised) comparable
  registrations := stays.onUpdate
  subscribers receiver own inUse := stays.hasChanged inUse own

/-- Through which of its handles a resolver is asked makes no difference to any answer, then or
later; the handle that is installed globally is one of them. What is done elsewhere does not affect
a resolver on which no callback of others acts. And where nothing is installed, the global registry
says so and changes nothing. -/
theorem handles_share_separate_resolvers :
    (∀ (p : Program) (requests requests' : List Request), Request.Exchanged p requests requests' →
      Request.session requests' p = Request.session requests p) ∧
    (∀ (run later : List Action) (j : ResolverId), j < (ofRun run).resolvers.length →
      SparedByOthers (ofRun run) j → (∀ a ∈ later, a.Spares (ofRun run) j) →
      Unaffected (ofRun run) j ((ofRun run).after later)) ∧
    ∀ (p : Program) (c : Call), p.installed = none →
      (∀ name, c = .cancel name → (p.names.handles.get? name).isSome = true) →
      c.installed.exec p = (c.unconfigured, p) := by
  refine ⟨fun p requests requests' => Request.Exchanged.session_eq, ?separate,
    fun p c missing handle => Call.exec_unconfigured missing handle⟩
  intro run later j exist others spares
  exact (stays_after exist others spares).unaffected (supervised_ofRun run)

/-- Two resolvers with a file each. The first one has another handle, which is installed, and the
second one has a callback and a subscriber. -/
def twoResolvers : List Action :=
  [.writeFile "a.json"
      (some "[\x7b\"name\":\"a\",\"settings\":\x7b\"k\":1\x7d\x7d,\x7b\"end\":true\x7d]"),
    .writeFile "b.json" (some "[\x7b\"version\":5,\"end\":true\x7d]"),
    .openFile "a" "a.json" none Facts.none, .openFile "b" "b.json" none Facts.none,
    .clone (.named "a") "c", .install (.named "c"),
    .onUpdate (.named "b") "g" (fun _ => .record "b" .done) false, .subscribe (.named "b") "r"]

/-- The first resolver gets a callback that looks at the second one, is reloaded and watched. -/
def elsewhere : List Action :=
  [.onUpdate .installed "h" (fun _ => .version "b" fun _ => .record "a" .done) false,
    .reload (.named "a"), .startWatch (.named "c") "n" (fun _ => .controlled) true,
    .send 0 .changed, .takeEvent 0, .dispatch 0]

theorem handles_share_separate_resolvers_installed :
    Request.session [.call .installed (.getSafe ["k"]), .call (.named "c") .reload]
        (ofRun twoResolvers) =
      Request.session [.call (.named "a") (.getSafe ["k"]), .call (.named "a") .reload]
        (ofRun twoResolvers) ∧
    Unaffected (ofRun twoResolvers) 1 ((ofRun twoResolvers).after elsewhere) ∧
    (Call.installed (.getSafe ["k"])).exec {} = (.ok (some .notConfigured, none), {}) := by
  obtain ⟨shared, separate, unconfigured⟩ := handles_share_separate_resolvers
  refine ⟨shared _ _ _ ?exchanged, separate twoResolvers elsewhere 1 ?exist ?others ?spares,
    unconfigured {} (.getSafe ["k"]) rfl fun _ other => by cases other⟩
  case exchanged =>
    have a : (ofRun twoResolvers).reached (.named "a") = some 0 := by decide +kernel
    have c : (ofRun twoResolvers).reached .installed = some 0 := by decide +kernel
    refine .call (.getSafe ["k"]) a c ?_
    have a' : ((Call.through (.getSafe ["k"]) (.named "a")).exec (ofRun twoResolvers)).2.reached
        (.named "a") = some 0 := by decide +kernel
    have c' : ((Call.through (.getSafe ["k"]) (.named "a")).exec (ofRun twoResolvers)).2.reached
        (.named "c") = some 0 := by decide +kernel
    exact .call .reload a' c' (.nil _)
  case exist => decide +kernel
  case others =>
    -- Apart from the second one nobody has callbacks yet.
    have first : ((ofRun twoResolvers).registry (.resolver 0)).live = [] := by decide +kernel
    have length : (ofRun twoResolvers).resolvers.length = 2 := by decide +kernel
    have registries : (ofRun twoResolvers).registries.length = 0 := by decide +kernel
    intro owner other slot member
    cases owner with
    | resolver i =>
      match i with
      | 0 => rw [first] at member; cases member
      | 1 => exact absurd rfl other
      | i + 2 =>
        have none : ¬ (ofRun twoResolvers).Has (.resolver (i + 2)) := by
          simp [Has, length]
        rw [registry_of_not_has none] at member
        cases member
    | registry i =>
      have none : ¬ (ofRun twoResolvers).Has (.registry i) := by simp [Has, registries]
      rw [registry_of_not_has none] at member
      cases member
  case spares =>
    have watches : (ofRun twoResolvers).watches.length = 0 := by decide +kernel
    have none (watch : Watch) (found : (ofRun twoResolvers).watches[0]? = some watch) :
        watch.resolver ≠ 1 := by
      have exist := (List.getElem?_eq_some_iff.1 found).1
      rw [watches] at exist
      cases exist
    have looks : SparedBy (ofRun twoResolvers) 1
        fun _ => .version "b" fun _ => .record "a" .done :=
      fun _ => ⟨List.not_mem_nil, fun _ => trivial⟩
    have a : (ofRun twoResolvers).reached (.named "a") ≠ some 1 := by decide +kernel
    have c : (ofRun twoResolvers).reached (.named "c") ≠ some 1 := by decide +kernel
    have installed : (ofRun twoResolvers).reached .installed ≠ some 1 := by decide +kernel
    simp only [elsewhere, List.forall_mem_cons, List.not_mem_nil, false_imp_iff, implies_true,
      and_true]
    refine ⟨.of_settings rfl installed (fun callback same => ?_) rfl rfl,
      .of_settings rfl a (fun callback same => by cases same) rfl rfl,
      .of_settings rfl c (fun callback same => by cases same) rfl rfl,
      .of_watch rfl none rfl rfl rfl, .of_watch rfl none rfl rfl rfl,
      .of_watch rfl none rfl rfl rfl⟩
    exact Option.some.inj same ▸ looks

end LayeredSettings
