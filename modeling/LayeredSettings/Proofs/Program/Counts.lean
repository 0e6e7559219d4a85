import LayeredSettings.Proofs.Program.Callbacks
import LayeredSettings.Proofs.Program.Action

/-!
What was published by resolvers, what waits for a dispatcher, and which rounds have run.

The history tells how often a resolver published and which rounds are over. Publications of a
resolver are numbered from one.
-/

namespace LayeredSettings

/-- The number of the publication whose round is over, for rounds of a resolver. -/
def Occurrence.round? (i : ResolverId) : Occurrence → Option Nat
  | .logged (.invoked j number _ _) => if j = i then some number else none
  | _ => none

def Occurrence.publishes (i : ResolverId) : Occurrence → Bool
  | .logged (.published j _ _ _) => j = i
  | _ => false

/-- Whether an occurrence is neither a publication nor the end of a round of a resolver. -/
def Occurrence.isAside : Occurrence → Bool
  | .logged (.published _ _ _ _) => false
  | .logged (.invoked _ _ _ _) => false
  | _ => true

namespace Program

/-- The number of the latest publication. -/
def number (p : Program) (i : ResolverId) : Nat := (p.resolvers[i]?.map (·.latest.number)).getD 0

/-- How many reloads of a resolver have succeeded. -/
def reloads (p : Program) (i : ResolverId) : Nat := p.history.countP (·.publishes i)

/-- The publications whose rounds have run, the latest round first. -/
def rounds (p : Program) (i : ResolverId) : List Nat := p.history.filterMap (·.round? i)

/-- For each watch its resolver and the publications that wait for the dispatcher. -/
def waiting (p : Program) : List (ResolverId × List Nat) :=
  p.watches.map fun w => (w.resolver, w.published.map (·.number))

/-- What waits in a queue, if it is one of a resolver. -/
def numbersOf (i : ResolverId) : ResolverId × List Nat → List Nat
  | (j, numbers) => if j = i then numbers else []

/-- The publications of a resolver that wait for a dispatcher. -/
def queued (p : Program) (i : ResolverId) : List Nat := p.waiting.flatMap (numbersOf i)

/-- Neither a publication nor a round, and no queue of publications has changed. -/
structure Quiet (p q : Program) : Prop where
  waiting : q.waiting = p.waiting
  number : ∀ i, q.number i = p.number i
  reloads : ∀ i, q.reloads i = p.reloads i
  rounds : ∀ i, q.rounds i = p.rounds i

namespace Quiet

theorem refl (p : Program) : Quiet p p := ⟨rfl, fun _ => rfl, fun _ => rfl, fun _ => rfl⟩

theorem trans {p q r : Program} (h : Quiet p q) (h' : Quiet q r) : Quiet p r where
  waiting := h'.waiting.trans h.waiting
  number i := (h'.number i).trans (h.number i)
  reloads i := (h'.reloads i).trans (h.reloads i)
  rounds i := (h'.rounds i).trans (h.rounds i)

theorem queued {p q : Program} (h : Quiet p q) (i : ResolverId) : q.queued i = p.queued i := by
  unfold Program.queued
  rw [h.waiting]

/-- Files, names and callbacks are of no account. -/
theorem of_eq {p q : Program} (hwatches : q.watches = p.watches)
    (hresolvers : q.resolvers = p.resolvers) (hhistory : q.history = p.history) : Quiet p q where
  waiting := by simp only [Program.waiting, hwatches]
  number i := by simp only [Program.number, hresolvers]
  reloads i := by simp only [Program.reloads, hhistory]
  rounds i := by simp only [Program.rounds, hhistory]

theorem note {o : Occurrence} (h : o.isAside = true) (p : Program) : Quiet p (p.note o) where
  waiting := rfl
  number _ := rfl
  reloads i := by
    have ho : o.publishes i = false := by
      unfold Occurrence.isAside at h
      unfold Occurrence.publishes
      split <;> simp_all
    simp [Program.reloads, Program.note, ho]
  rounds i := by
    have ho : o.round? i = none := by
      unfold Occurrence.isAside at h
      unfold Occurrence.round?
      split <;> simp_all
    simp [Program.rounds, Program.note, ho]

theorem modifyResolver (f : Resolver → Resolver) (hf : ∀ r, (f r).latest = r.latest) (p : Program)
    (i : ResolverId) : Quiet p (p.modifyResolver i f) where
  waiting := rfl
  number j := by
    simp only [Program.number, Program.modifyResolver, List.getElem?_modify]
    cases p.resolvers[j]? with
    | none => rfl
    | some r =>
      by_cases hij : i = j
      · simp [hij, hf]
      · simp [hij]
  reloads _ := rfl
  rounds _ := rfl

theorem addResolver {r : Resolver} (hr : r.latest.number = 0) (p : Program) :
    Quiet p (p.addResolver r).1 where
  waiting := rfl
  number i := by
    simp only [Program.number, Program.addResolver, List.getElem?_append]
    by_cases hi : i < p.resolvers.length
    · rw [if_pos hi]
    · rw [if_neg hi, List.getElem?_eq_none (Nat.le_of_not_lt hi)]
      cases hlast : [r][i - p.resolvers.length]? with
      | none => rfl
      | some r' =>
        obtain rfl := List.mem_singleton.1 (List.mem_of_getElem? hlast)
        exact hr
  reloads _ := rfl
  rounds _ := rfl

/-- What a watch hears and whether it runs is of no account. -/
theorem modifyWatch (f : Watch → Watch)
    (hf : ∀ w, (f w).resolver = w.resolver ∧ (f w).published = w.published) (p : Program)
    (w : WatchId) : Quiet p (p.modifyWatch w f) where
  waiting := by
    simp only [Program.waiting, Program.modifyWatch]
    apply List.ext_getElem?
    intro v
    simp only [List.getElem?_map, List.getElem?_modify]
    cases p.watches[v]? with
    | none => rfl
    | some watch =>
      by_cases hwv : w = v
      · simp [hwv, hf watch]
      · simp [hwv]
  number _ := rfl
  reloads _ := rfl
  rounds _ := rfl

theorem modifyRegistry (f : Registry → Registry) (p : Program) (owner : Owner) :
    Quiet p (p.modifyRegistry owner f) := by
  cases owner with
  | resolver i =>
    exact modifyResolver (fun r => { r with registry := f r.registry }) (fun _ => rfl) p i
  | registry i => exact of_eq rfl rfl rfl

theorem register (p : Program) (owner : Owner) (callback : Callback) :
    Quiet p (p.register owner callback).1 :=
  (modifyRegistry (·.register p.callbacks.length) p owner).trans (of_eq rfl rfl rfl)

theorem cancel (p : Program) (owner : Owner) (handle : Nat) : Quiet p (p.cancel owner handle) :=
  (modifyRegistry (·.cancel handle) p owner).trans (of_eq rfl rfl rfl)

end Quiet

theorem watches_publish (p : Program) (i : ResolverId) (d : Document) :
    (p.publish i d).watches = p.watches := by
  unfold publish
  split <;> rfl

theorem waiting_publish (p : Program) (i : ResolverId) (d : Document) :
    (p.publish i d).waiting = p.waiting := by
  simp only [waiting, watches_publish]

section
variable {p : Program} {i : ResolverId} {r : Resolver} (hr : p.resolvers[i]? = some r)
include hr

theorem number_publish (d : Document) (j : ResolverId) :
    (p.publish i d).number j = p.number j + if i = j then 1 else 0 := by
  simp only [publish, hr, number, log, note, modifyResolver, List.getElem?_modify]
  by_cases hij : i = j
  · subst hij
    simp [hr, Resolver.publish]
  · simp [hij]

theorem reloads_publish (d : Document) (j : ResolverId) :
    (p.publish i d).reloads j = p.reloads j + if i = j then 1 else 0 := by
  simp [publish, hr, reloads, log, note, modifyResolver, List.countP_cons, Occurrence.publishes]

theorem rounds_publish (d : Document) (j : ResolverId) :
    (p.publish i d).rounds j = p.rounds j := by
  simp [publish, hr, rounds, log, note, modifyResolver, Occurrence.round?]

end

theorem number_log (p : Program) (d : Diagnostic) (i : ResolverId) :
    (p.log d).number i = p.number i := rfl

theorem rounds_log_invoked (p : Program) (i : ResolverId) (number : Nat) (version : Int64)
    (completed : Nat) (j : ResolverId) :
    (p.log (.invoked i number version completed)).rounds j =
      (if i = j then [number] else []) ++ p.rounds j := by
  by_cases hij : i = j <;> simp [rounds, log, note, Occurrence.round?, hij]

theorem reloads_log_invoked (p : Program) (i : ResolverId) (number : Nat) (version : Int64)
    (completed : Nat) (j : ResolverId) :
    (p.log (.invoked i number version completed)).reloads j = p.reloads j := by
  simp [reloads, log, note, Occurrence.publishes]

/-- A reload of the document counts exactly if it succeeds. -/
theorem reloads_reloadDocument (p : Program) (i j : ResolverId) :
    (p.reloadDocument i).1.reloads j =
      p.reloads j + if i = j ∧ (p.reloadDocument i).2.isOk then 1 else 0 := by
  cases h : p.reloadDocument i with
  | mk q answer =>
    cases answer with
    | error fault =>
      obtain rfl := reloadDocument_eq_error h
      simp [Except.isOk, Except.toBool]
    | ok published =>
      obtain ⟨r, source, hr, -, -, -, rfl⟩ := reloadDocument_eq_ok h
      simp [reloads_publish hr, Except.isOk, Except.toBool]

/-! ## Calls and events that leave publications and rounds alone -/

namespace Quiet

theorem foldl {α : Type} {f : Program → α → Program} (hf : ∀ p a, Quiet p (f p a)) (l : List α)
    (p : Program) : Quiet p (l.foldl f p) := by
  induction l generalizing p with
  | nil => exact refl p
  | cons a l ih => exact (hf p a).trans (ih (f p a))

theorem openFile (p : Program) (path : String) (format : Option Format) (facts : Facts) :
    Quiet p (p.openFile path format facts).1 := by
  unfold Program.openFile
  dsimp only
  split
  · exact refl p
  · exact (note rfl p).trans (addResolver rfl _)

theorem getSafe (p : Program) (i : ResolverId) (path : List String) :
    Quiet p (p.getSafe i path).1 := by
  unfold Program.getSafe
  split
  · exact refl p
  · split
    · exact refl p
    · exact note rfl p

theorem subscribe {p q : Program} {notifier : Notifier} {hears : Option (List String)}
    (h : p.subscribe notifier = .ok (q, hears)) : Quiet p q := by
  cases notifier with
  | controlled =>
    obtain ⟨rfl, -⟩ := Prod.mk.inj (Except.ok.inj h)
    exact refl p
  | failing fault => cases h
  | file path watchable =>
    simp only [Program.subscribe] at h
    split at h
    · obtain ⟨rfl, -⟩ := Prod.mk.inj (Except.ok.inj h)
      exact note rfl p
    · cases h

theorem send (p : Program) (w : WatchId) (e : WatchEvent) : Quiet p (p.send w e).1 := by
  unfold Program.send
  split
  · exact modifyWatch (·.push e) (fun _ => ⟨rfl, rfl⟩) p w
  · exact refl p

theorem close (p : Program) (w : WatchId) : Quiet p (p.close w) :=
  modifyWatch Watch.release (fun _ => ⟨rfl, rfl⟩) p w

theorem setEvents (p : Program) (w : WatchId) (events : List WatchEvent) :
    Quiet p (p.modifyWatch w fun watch => { watch with events }) :=
  modifyWatch (fun watch => { watch with events }) (fun _ => ⟨rfl, rfl⟩) p w

theorem endTask (p : Program) (w : WatchId) : Quiet p (p.endTask w) := by
  unfold Program.endTask
  split
  · split
    · exact (modifyWatch Watch.endTask (fun _ => ⟨rfl, rfl⟩) p w).trans (note rfl _)
    · exact refl p
  · exact refl p

theorem endTaskIfOver (p : Program) (w : WatchId) : Quiet p (p.endTaskIfOver w) := by
  unfold Program.endTaskIfOver
  split
  · exact endTask p w
  · exact refl p

theorem requestStop (p : Program) (i : ResolverId) : Quiet p (p.requestStop i).1 := by
  unfold Program.requestStop
  split
  · rename_i w _
    exact (modifyResolver (fun r => { r with watch := .stopped }) (fun _ => rfl) p i).trans
      (modifyWatch Watch.requestStop (fun _ => ⟨rfl, rfl⟩) _ w)
  · exact refl p

theorem stopWatch (p : Program) (i : ResolverId) : Quiet p (p.stopWatch i).1 := by
  have hrequest := requestStop p i
  unfold Program.stopWatch
  split
  · rename_i q w hq
    rw [hq] at hrequest
    exact hrequest.trans (endTask q w)
  · rename_i q hq
    rw [hq] at hrequest
    exact hrequest

theorem stopAndLog (p : Program) (i : ResolverId) : Quiet p (p.stopAndLog i) := by
  have hstop := stopWatch p i
  unfold Program.stopAndLog
  split
  · rename_i q hq
    rw [hq] at hstop
    exact hstop.trans (note rfl q)
  · rename_i q hq
    rw [hq] at hstop
    exact hstop

theorem notify (p : Program) (names : Option (List String)) : Quiet p (p.notify names) := by
  refine foldl (fun q w => ?_) _ p
  split
  · exact send q w .changed
  · exact refl q

theorem changeFiles (p : Program) (files : FileStore) : Quiet p { p with files } :=
  of_eq rfl rfl rfl

theorem writeFile (p : Program) (path : String) (content : Option String) :
    Quiet p (p.writeFile path content) :=
  (changeFiles p _).trans (notify _ _)

theorem replaceFile (p : Program) (path staging : String) (content : Option String) :
    Quiet p (p.replaceFile path staging content) :=
  (writeFile p staging content).trans ((changeFiles _ _).trans (notify _ _))

theorem removeDirectory (p : Program) (path : String) : Quiet p (p.removeDirectory path) := by
  unfold Program.removeDirectory
  split
  · exact ⟨by simp [Program.waiting, Watch.forget], fun _ => rfl, fun _ => rfl, fun _ => rfl⟩
  · exact refl p

end Quiet

end Program
end LayeredSettings
