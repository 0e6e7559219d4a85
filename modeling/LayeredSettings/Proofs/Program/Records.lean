import LayeredSettings.Proofs.Program.Journal
import LayeredSettings.Proofs.Program.Steps

/-!
What the marks of a program tell of its registries and callbacks.

They tell what is in every slot of every registry and how often every callback has run. Registering,
cancelling and calling keep this so, and whatever else changes is not about callbacks.
-/

namespace LayeredSettings

theorem Registry.pairwise_live (r : Registry) : (r.live.map Prod.fst).Pairwise (· < ·) := by
  have hsublist : ∀ (slots : List (Option CallbackId)) (k : Nat),
      (((slots.zipIdx k).filterMap fun entry => entry.1.map (entry.2, ·)).map Prod.fst).Sublist
        (List.range' k slots.length) := by
    intro slots
    induction slots with
    | nil => exact fun k => .slnil
    | cons slot slots ih =>
      intro k
      rw [List.zipIdx_cons, List.length_cons, List.range'_succ]
      cases slot with
      | none => exact (ih (k + 1)).cons k
      | some c => exact (ih (k + 1)).cons_cons k
  exact List.Pairwise.sublist (hsublist r.slots 0) List.pairwise_lt_range'

theorem Registry.getElem?_register {r : Registry} {new c : CallbackId} {handle : Nat} :
    (r.register new).slots[handle]? = some (some c) ↔
      r.size = handle ∧ new = c ∨ r.slots[handle]? = some (some c) := by
  rcases Nat.lt_or_ge handle r.size with hlt | hge
  · have hne : r.size ≠ handle := Nat.ne_of_gt hlt
    simp [register, List.getElem?_append_left hlt, hne]
  · have hnone : r.slots[handle]? = none := List.getElem?_eq_none hge
    rw [register, List.getElem?_append_right hge, hnone, List.getElem?_singleton]
    have hzero : handle - r.slots.length = 0 ↔ r.size = handle := by
      unfold size at hge ⊢
      omega
    simp [hzero]

theorem Registry.getElem?_cancel {r : Registry} {cancelled handle : Nat} {c : CallbackId} :
    (r.cancel cancelled).slots[handle]? = some (some c) ↔
      cancelled ≠ handle ∧ r.slots[handle]? = some (some c) := by
  rw [cancel, List.getElem?_set]
  by_cases hsame : cancelled = handle
  · simp [hsame]
  · simp [hsame]

namespace Program

/-- What happened to callbacks, in order. -/
def trace (p : Program) : List Mark := p.journal.reverse

@[simp] theorem trace_mark (p : Program) (m : Mark) : (p.mark m).trace = p.trace ++ [m] :=
  List.reverse_cons ..

@[simp] theorem trace_enter (p : Program) (c : CallbackId) (m : Mark) :
    (p.enter c m).trace = p.trace ++ [m] :=
  List.reverse_cons ..

theorem trace_register (p : Program) (owner : Owner) (callback : Callback) :
    (p.register owner callback).1.trace =
      p.trace ++ [.registered owner (p.registry owner).size p.callbacks.length] := by
  cases owner <;> exact List.reverse_cons ..

theorem trace_cancel (p : Program) (owner : Owner) (handle : Nat) :
    (p.cancel owner handle).trace = p.trace ++ [.cancelled owner handle] := by
  cases owner <;> exact List.reverse_cons ..

theorem callbacks_register (p : Program) (owner : Owner) (callback : Callback) :
    (p.register owner callback).1.callbacks = p.callbacks ++ [⟨callback, 0⟩] := by
  cases owner <;> rfl

theorem length_trace (p : Program) : p.trace.length = p.journal.length := List.length_reverse

def runsOf (p : Program) (c : CallbackId) : Nat := (p.callbacks[c]?.map (·.runs)).getD 0

/-! ## Registries -/

theorem registry_modifyRegistry_ne (p : Program) {owner other : Owner} (hne : owner ≠ other)
    (f : Registry → Registry) : (p.modifyRegistry owner f).registry other = p.registry other := by
  cases owner with
  | resolver i =>
    cases other with
    | resolver j =>
      have hij : i ≠ j := fun h => hne (h ▸ rfl)
      simp [modifyRegistry, modifyResolver, registry, hij]
    | registry j => rfl
  | registry i =>
    cases other with
    | resolver j => rfl
    | registry j =>
      have hij : i ≠ j := fun h => hne (h ▸ rfl)
      simp [modifyRegistry, registry, hij]

theorem registry_modifyRegistry_self (p : Program) {owner : Owner} {f : Registry → Registry}
    (hf : p.Has owner ∨ f {} = {}) :
    (p.modifyRegistry owner f).registry owner = f (p.registry owner) := by
  cases owner with
  | resolver i =>
    rcases hf with known | hf
    · have hi : i < p.resolvers.length := known
      simp [modifyRegistry, modifyResolver, registry, hi]
    · simp only [modifyRegistry, modifyResolver, registry, List.getElem?_modify_eq]
      cases p.resolvers[i]? with
      | none => exact hf.symm
      | some r => rfl
  | registry i =>
    rcases hf with known | hf
    · have hi : i < p.registries.length := known
      simp [modifyRegistry, registry, hi]
    · simp only [modifyRegistry, registry, List.getElem?_modify_eq]
      cases p.registries[i]? with
      | none => exact hf.symm
      | some r => rfl

theorem registry_register (p : Program) {owner : Owner} (known : p.Has owner) (callback : Callback)
    (other : Owner) : (p.register owner callback).1.registry other =
      if owner = other then (p.registry owner).register p.callbacks.length
      else p.registry other := by
  have hregistry : (p.register owner callback).1.registry other =
      (p.modifyRegistry owner (·.register p.callbacks.length)).registry other := by
    cases other <;> rfl
  rw [hregistry]
  split
  · rename_i hsame
    rw [← hsame, registry_modifyRegistry_self p (.inl known)]
  · rename_i hne
    exact registry_modifyRegistry_ne p hne _

theorem registry_cancel (p : Program) (owner : Owner) (handle : Nat) (other : Owner) :
    (p.cancel owner handle).registry other =
      if owner = other then (p.registry owner).cancel handle else p.registry other := by
  have hregistry : (p.cancel owner handle).registry other =
      (p.modifyRegistry owner (·.cancel handle)).registry other := by
    cases other <;> rfl
  rw [hregistry]
  split
  · rename_i hsame
    rw [← hsame, registry_modifyRegistry_self p (.inr rfl)]
  · rename_i hne
    exact registry_modifyRegistry_ne p hne _

theorem NamesExist.modifyRegistry {p : Program} (h : p.NamesExist) (owner : Owner)
    (f : Registry → Registry) : (p.modifyRegistry owner f).NamesExist := by
  cases owner with
  | resolver i =>
    refine h.of_length_le rfl rfl ?_ (Nat.le_refl _)
    simp [Program.modifyRegistry, modifyResolver]
  | registry i =>
    refine h.of_length_le rfl rfl (Nat.le_refl _) ?_
    simp [Program.modifyRegistry]

/-! ## What the marks tell -/

/-- The marks of a program tell what its registries and callbacks are. -/
structure Recorded (p : Program) : Prop where
  exist : p.NamesExist
  handles : ∀ owner, (p.trace.filterMap (Mark.registered? owner)).map Prod.fst =
    List.range (p.registry owner).size
  slots : ∀ {owner : Owner} {handle : Nat} {c : CallbackId},
    (p.registry owner).slots[handle]? = some (some c) ↔ LiveIn p.trace owner handle c
  ids : p.trace.filterMap Mark.new? = List.range p.callbacks.length
  runs : ∀ c, p.runsOf c = p.trace.countP (Mark.calls c)
  orderly : Orderly p.trace

/-- Nothing has changed that marks tell of. -/
structure Unmarked (p q : Program) : Prop where
  exist : p.NamesExist → q.NamesExist
  registry : ∀ owner, q.registry owner = p.registry owner
  callbacks : q.callbacks = p.callbacks
  journal : q.journal = p.journal

theorem registry_addResolver (p : Program) {r : Resolver} (hr : r.registry = {}) (owner : Owner) :
    (p.addResolver r).1.registry owner = p.registry owner := by
  cases owner with
  | registry i => rfl
  | resolver i =>
    simp only [registry, addResolver]
    rcases Nat.lt_or_ge i p.resolvers.length with hlt | hge
    · rw [List.getElem?_append_left hlt]
    · rw [List.getElem?_append_right hge, List.getElem?_eq_none hge, List.getElem?_singleton]
      split <;> simp [hr]

theorem registry_addRegistry (p : Program) (owner : Owner) :
    Program.registry { p with registries := p.registries ++ [{}] } owner = p.registry owner := by
  cases owner with
  | resolver i => rfl
  | registry i =>
    simp only [registry]
    rcases Nat.lt_or_ge i p.registries.length with hlt | hge
    · rw [List.getElem?_append_left hlt]
    · rw [List.getElem?_append_right hge, List.getElem?_eq_none hge, List.getElem?_singleton]
      split <;> rfl

namespace Unmarked

theorem refl (p : Program) : Unmarked p p := ⟨id, fun _ => rfl, rfl, rfl⟩

theorem trans {p q r : Program} (h : Unmarked p q) (h' : Unmarked q r) : Unmarked p r where
  exist := h'.exist ∘ h.exist
  registry owner := (h'.registry owner).trans (h.registry owner)
  callbacks := h'.callbacks.trans h.callbacks
  journal := h'.journal.trans h.journal

theorem note (p : Program) (o : Occurrence) : Unmarked p (p.note o) where
  exist h := ⟨h.settings, h.registries, h.installed⟩
  registry owner := by cases owner <;> rfl
  callbacks := rfl
  journal := rfl

theorem changeFiles (p : Program) (files : FileStore) : Unmarked p { p with files } where
  exist h := ⟨h.settings, h.registries, h.installed⟩
  registry owner := by cases owner <;> rfl
  callbacks := rfl
  journal := rfl

theorem addRegistry (p : Program) : Unmarked p { p with registries := p.registries ++ [{}] } where
  exist h := h.of_length_le rfl rfl (Nat.le_refl _) (by simp)
  registry := registry_addRegistry p
  callbacks := rfl
  journal := rfl

theorem addResolver (p : Program) {r : Resolver} (hr : r.registry = {}) :
    Unmarked p (p.addResolver r).1 where
  exist h := h.of_length_le rfl rfl (by simp [Program.addResolver]) (Nat.le_refl _)
  registry := registry_addResolver p hr
  callbacks := rfl
  journal := rfl

theorem watches (p : Program) (watches : List Watch) : Unmarked p { p with watches } where
  exist h := ⟨h.settings, h.registries, h.installed⟩
  registry owner := by cases owner <;> rfl
  callbacks := rfl
  journal := rfl

theorem modifyResolver (p : Program) (i : ResolverId) (f : Resolver → Resolver)
    (hf : ∀ r, (f r).registry = r.registry) : Unmarked p (p.modifyResolver i f) where
  exist h := h.of_length_le rfl rfl (by simp [Program.modifyResolver]) (Nat.le_refl _)
  registry owner := by
    cases owner with
    | registry j => rfl
    | resolver j =>
      have hregistries : (p.resolvers.modify i f).map (·.registry) =
          p.resolvers.map (·.registry) := map_modify_of_eq hf _ i
      simp only [Program.registry, Program.modifyResolver, ← List.getElem?_map, hregistries]
  callbacks := rfl
  journal := rfl

theorem publish (p : Program) (i : ResolverId) (d : Document) : Unmarked p (p.publish i d) := by
  unfold Program.publish
  split
  · exact (modifyResolver p i (·.publish d) fun _ => rfl).trans (note _ _)
  · exact refl p

theorem endTask (p : Program) (w : WatchId) : Unmarked p (p.endTask w) := by
  unfold Program.endTask
  split
  · split
    · exact (watches p _).trans (note _ _)
    · exact refl p
  · exact refl p

theorem requestStop (p : Program) (i : ResolverId) : Unmarked p (p.requestStop i).1 := by
  unfold Program.requestStop
  split
  · exact (modifyResolver p i (fun r => { r with watch := .stopped }) fun _ => rfl).trans
      (watches _ _)
  · exact refl p

theorem launch (p : Program) (i : ResolverId) (hears : Option (List String)) :
    Unmarked p (p.launch i hears) :=
  (watches p _).trans (modifyResolver _ i _ fun _ => rfl)

end Unmarked

/-- A relation that only marks can break is kept if registering, cancelling and calling keep it. -/
theorem Maintained.of_unmarked {R : Program → Program → Prop}
    (unmarked : ∀ {p q : Program}, Unmarked p q → R p q)
    (trans : ∀ {p q r : Program}, R p q → R q r → R p r)
    (register : ∀ (p : Program) (owner : Owner) (callback : Callback),
      (p.NamesExist → p.Has owner) → R p (p.register owner callback).1)
    (atOnce : ∀ (p : Program) (owner : Owner) (callback : Callback),
      (p.NamesExist → p.Has owner) → R p ((p.register owner callback).1.enter p.callbacks.length
        (.calledAtOnce p.callbacks.length)))
    (cancel : ∀ (p : Program) (owner : Owner) (handle : Nat), R p (p.cancel owner handle))
    (round : ∀ {p q : Program} {owner : Owner} {completed : Nat},
      Calls R p.journal.length (p.registry owner).live (p.mark (.began owner), 0) (q, completed) →
      R p (q.mark (.ended p.journal.length completed))) : Maintained R where
  refl p := unmarked (.refl p)
  trans := trans
  note p o _ := unmarked (.note p o)
  changeFiles p files := unmarked (.changeFiles p files)
  refer hexist := unmarked ⟨hexist, fun owner => by cases owner <;> rfl, rfl, rfl⟩
  addRegistry p := unmarked (.addRegistry p)
  addResolver p r _ hr := unmarked (.addResolver p hr)
  register := register
  atOnce owner callback known hq := trans (atOnce _ owner callback known) hq
  cancel := cancel
  round := round
  announce number version called := trans (round called) (unmarked (.note _ _))
  publish p i d := unmarked (.publish p i d)
  tend _ := unmarked (.watches _ _)
  endTask p w := unmarked (.endTask p w)
  stop _ := unmarked ((Unmarked.requestStop _ _).trans (.endTask _ _))

theorem Maintained.after_of_unmarked {R : Program → Program → Prop} (h : Maintained R)
    (unmarked : ∀ {p q : Program}, Unmarked p q → R p q) (p : Program) (run : List Action) :
    R p (p.after run) :=
  h.after (fun q i hears _ _ => unmarked (.launch q i hears)) run
    (.inr fun q i => unmarked (.requestStop q i)) p

namespace Recorded

variable {p q : Program} (h : Recorded p)
include h

theorem unmarked (hq : Unmarked p q) : Recorded q := by
  have htrace : q.trace = p.trace := congrArg List.reverse hq.journal
  constructor
  case exist => exact hq.exist h.exist
  case handles =>
    intro owner
    rw [htrace, hq.registry]
    exact h.handles owner
  case slots =>
    intro owner handle c
    rw [htrace, hq.registry]
    exact h.slots
  case ids =>
    rw [htrace, hq.callbacks]
    exact h.ids
  case runs =>
    intro c
    rw [htrace, runsOf, hq.callbacks]
    exact h.runs c
  case orderly =>
    rw [htrace]
    exact h.orderly

theorem known_of_live {owner : Owner} {slot : Nat × CallbackId}
    (member : slot ∈ (p.registry owner).live) : slot.2 < p.callbacks.length := by
  obtain ⟨before, after, htrace, -⟩ := h.slots.1 (Registry.mem_live.1 member)
  have hid : slot.2 ∈ p.trace.filterMap Mark.new? := by
    rw [htrace]
    simp [Mark.new?]
  rw [h.ids, List.mem_range] at hid
  exact hid

/-- A mark that neither registers nor cancels. -/
theorem marked {m : Mark} (htrace : q.trace = p.trace ++ [m]) (exist : q.NamesExist)
    (hregistry : ∀ owner, q.registry owner = p.registry owner)
    (hlength : q.callbacks.length = p.callbacks.length)
    (hnew : m.new? = none) (hcancelled : ∀ owner handle, m ≠ .cancelled owner handle)
    (hruns : ∀ c, q.runsOf c = p.runsOf c + if m.calls c then 1 else 0)
    (hatOnce : ∀ c, m = .calledAtOnce c → ∃ n owner handle, p.trace.length = n + 1 ∧
      p.trace[n]? = some (.registered owner handle c))
    (hbegun : ∀ round, m.round? = some round → ∃ owner, p.trace[round]? = some (.began owner)) :
    Recorded q := by
  have hregistered : ∀ owner handle c, m ≠ .registered owner handle c := by
    rintro owner handle c rfl
    cases hnew
  constructor
  case exist => exact exist
  case handles =>
    intro owner
    have hnone : m.registered? owner = none := by
      unfold Mark.registered?
      split
      · exact absurd rfl (hregistered _ _ _)
      · rfl
    rw [htrace, hregistry, List.filterMap_append, List.filterMap_cons_none hnone,
      List.filterMap_nil, List.append_nil]
    exact h.handles owner
  case slots =>
    intro owner handle c
    rw [htrace, hregistry, liveIn_concat, h.slots]
    constructor
    · exact fun live => .inr ⟨live, hcancelled owner handle⟩
    · rintro (hm | ⟨live, -⟩)
      · exact absurd hm (hregistered owner handle c)
      · exact live
  case ids =>
    rw [htrace, hlength, List.filterMap_append, List.filterMap_cons_none hnew,
      List.filterMap_nil, List.append_nil]
    exact h.ids
  case runs =>
    intro c
    rw [htrace, hruns, List.countP_append, List.countP_singleton, h.runs]
  case orderly =>
    rw [htrace]
    exact h.orderly.concat hatOnce hbegun

theorem mark {m : Mark} (hnew : m.new? = none)
    (hcancelled : ∀ owner handle, m ≠ .cancelled owner handle) (hcalls : ∀ c, m.calls c = false)
    (hbegun : ∀ round, m.round? = some round → ∃ owner, p.trace[round]? = some (.began owner)) :
    Recorded (p.mark m) := by
  refine h.marked (p.trace_mark m) ⟨h.exist.settings, h.exist.registries, h.exist.installed⟩
    (fun owner => by cases owner <;> rfl) rfl hnew hcancelled (fun c => ?_) ?_ hbegun
  · rw [hcalls]
    rfl
  · rintro c rfl
    have hc := hcalls c
    simp [Mark.calls] at hc

theorem enter {c : CallbackId} {m : Mark} (known : c < p.callbacks.length) (hnew : m.new? = none)
    (hcancelled : ∀ owner handle, m ≠ .cancelled owner handle)
    (hcalls : ∀ d, m.calls d = decide (c = d))
    (hatOnce : ∀ d, m = .calledAtOnce d → ∃ n owner handle, p.trace.length = n + 1 ∧
      p.trace[n]? = some (.registered owner handle d))
    (hbegun : ∀ round, m.round? = some round → ∃ owner, p.trace[round]? = some (.began owner)) :
    Recorded (p.enter c m) := by
  refine h.marked (p.trace_enter c m) ⟨h.exist.settings, h.exist.registries, h.exist.installed⟩
    (fun owner => by cases owner <;> rfl) (by simp [Program.enter, Program.mark]) hnew hcancelled
    (fun d => ?_) hatOnce hbegun
  simp only [runsOf, Program.enter, Program.mark, List.getElem?_modify, hcalls, decide_eq_true_eq]
  by_cases hcd : c = d
  · subst hcd
    simp [known]
  · simp [hcd]

theorem register {owner : Owner} (known : p.Has owner) (callback : Callback) :
    Recorded (p.register owner callback).1 := by
  have htrace := p.trace_register owner callback
  have hcallbacks := p.callbacks_register owner callback
  constructor
  case exist =>
    have hexist := h.exist.modifyRegistry owner (·.register p.callbacks.length)
    exact ⟨hexist.settings, hexist.registries, hexist.installed⟩
  case handles =>
    intro other
    rw [htrace, registry_register p known, List.filterMap_append, List.map_append, h.handles]
    by_cases hsame : owner = other
    · subst hsame
      simp [Mark.registered?, List.range_succ]
    · simp [Mark.registered?, hsame]
  case slots =>
    intro other handle c
    rw [htrace, registry_register p known, liveIn_concat, ← h.slots]
    by_cases hsame : owner = other
    · subst hsame
      simp [Registry.getElem?_register]
    · simp [hsame]
  case ids =>
    rw [htrace, hcallbacks, List.filterMap_append, h.ids]
    simp [Mark.new?, List.range_succ]
  case runs =>
    intro c
    rw [htrace, List.countP_append, ← h.runs, runsOf, runsOf, hcallbacks]
    rcases Nat.lt_or_ge c p.callbacks.length with hlt | hge
    · simp [List.getElem?_append_left hlt, Mark.calls]
    · rw [List.getElem?_append_right hge, List.getElem?_eq_none hge, List.getElem?_singleton]
      split <;> simp [Mark.calls]
  case orderly =>
    rw [htrace]
    exact h.orderly.concat (by simp) (by simp [Mark.round?])

theorem cancel (owner : Owner) (handle : Nat) : Recorded (p.cancel owner handle) := by
  have htrace := p.trace_cancel owner handle
  have hcallbacks : (p.cancel owner handle).callbacks = p.callbacks := by
    cases owner <;> rfl
  constructor
  case exist =>
    have hexist := h.exist.modifyRegistry owner (·.cancel handle)
    exact ⟨hexist.settings, hexist.registries, hexist.installed⟩
  case handles =>
    intro other
    rw [htrace, registry_cancel, List.filterMap_append, List.map_append, h.handles]
    by_cases hsame : owner = other
    · subst hsame
      simp [Mark.registered?]
    · simp [Mark.registered?, hsame]
  case slots =>
    intro other handle' c
    rw [htrace, registry_cancel, liveIn_concat, ← h.slots]
    by_cases hsame : owner = other
    · subst hsame
      simp [Registry.getElem?_cancel, and_comm]
    · simp [hsame]
  case ids =>
    rw [htrace, hcallbacks, List.filterMap_append, h.ids]
    simp [Mark.new?]
  case runs =>
    intro c
    rw [htrace, List.countP_append, ← h.runs, runsOf, runsOf, hcallbacks]
    simp [Mark.calls]
  case orderly =>
    rw [htrace]
    exact h.orderly.concat (by simp) (by simp [Mark.round?])

end Recorded

end Program
end LayeredSettings
