import Mathlib.Data.List.Nodup
import LayeredSettings.Proofs.Program.Registries

/-!
Cancelling through the global registry.

A handle is the index of a slot and does not tell whose slot it is. Cancelling through the global
registry empties the slot of that index in the resolver that is installed by then. If the resolver
is the one that gave the handle out, that is the slot of the callback that was registered; in
another resolver it is the slot of a callback of its own, if there is one.
-/

namespace LayeredSettings.Program

/-- From a state on, a callback runs in every round of its registry that begins before its slot is
cancelled. -/
def KeepsFiring (p : Program) (owner : Owner) (handle : Nat) (c : CallbackId) : Prop :=
  ∀ (later : List Action) (round : Nat), p.trace.length ≤ round →
    (p.after later).trace[round]? = some (.began owner) →
    .cancelled owner handle ∉ ((p.after later).trace.take round).drop p.trace.length →
    (handle, c) ∈ callsOf round (p.after later).trace

/-- From a state on, no round of a registry runs a callback under a handle. -/
def Silent (p : Program) (owner : Owner) (handle : Nat) : Prop :=
  ∀ (later : List Action) (round : Nat), p.trace.length ≤ round →
    (p.after later).trace[round]? = some (.began owner) →
    ∀ c, (handle, c) ∉ callsOf round (p.after later).trace

/-- Cancelling a handle through the global registry stops no callback but one. -/
def StopsOnly (p : Program) (handle : String) (c : CallbackId) : Prop :=
  ∀ owner k d, LiveIn p.trace owner k d → d ≠ c →
    (p.act (.cancelUpdate .installed handle)).KeepsFiring owner k d

/-- What cancelling through the global registry does with a handle that a resolver gave out for a
callback. -/
structure CancelsInstalled (p : Program) (handle : String) (i : ResolverId) (index : Nat)
    (c : CallbackId) : Prop where
  same : p.installed = some i → p.StopsOnly handle c ∧
    (p.act (.cancelUpdate .installed handle)).Silent (.resolver i) index
  other : ∀ j, p.installed = some j → ∀ owner k d, LiveIn p.trace owner k d →
    (owner, k) ≠ (.resolver j, index) →
    (p.act (.cancelUpdate .installed handle)).KeepsFiring owner k d
  nothing : p.installed = none → p.act (.cancelUpdate .installed handle) = p

/-! ## What is live stays so until it is cancelled -/

section
variable {p : Program} (recorded : p.Recorded) {owner : Owner} {handle : Nat}
include recorded

/-- What was marked by the time a round began starts with what was marked before. -/
theorem Recorded.take_trace_after (later : List Action) {round : Nat}
    (hround : p.trace.length ≤ round) : (p.after later).trace.take round =
      p.trace ++ ((p.after later).trace.take round).drop p.trace.length := by
  obtain ⟨-, grown⟩ := lawful_after p later recorded
  obtain ⟨new, hnew, -⟩ := grown.added
  have hstart : p.trace <+: (p.after later).trace.take round :=
    List.prefix_take_iff.2 ⟨⟨new, hnew.symm⟩, hround⟩
  exact (List.prefix_append_drop hstart)

theorem Recorded.keepsFiring {c : CallbackId} (live : LiveIn p.trace owner handle c) :
    p.KeepsFiring owner handle c := by
  intro later round hround hbegan hkept
  obtain ⟨-, grown⟩ := lawful_after p later recorded
  obtain ⟨before, after, heq, hnot⟩ := live
  refine (grown.done hround hbegan).mem_calls.2 ?_
  rw [recorded.take_trace_after later hround]
  refine ⟨before, after ++ ((p.after later).trace.take round).drop p.trace.length, ?_, ?_⟩
  · rw [heq, List.append_assoc, List.cons_append, ← heq]
  · rw [List.mem_append, not_or]
    exact ⟨hnot, hkept⟩

theorem Recorded.mem_handles (hlt : handle < (p.registry owner).size) :
    handle ∈ (p.trace.filterMap (Mark.registered? owner)).map Prod.fst := by
  rw [recorded.handles]
  exact List.mem_range.2 hlt

theorem Recorded.nodup_handles :
    ((p.trace.filterMap (Mark.registered? owner)).map Prod.fst).Nodup := by
  rw [recorded.handles]
  exact List.nodup_range

theorem Recorded.silent (hcancelled : (p.registry owner).slots[handle]? = some none) :
    p.Silent owner handle := by
  intro later round hround hbegan c hcalled
  obtain ⟨recorded', grown⟩ := lawful_after p later recorded
  have live := (grown.done hround hbegan).mem_calls.1 hcalled
  have hsublist : ((p.after later).trace.take round).Sublist (p.after later).trace :=
    List.take_sublist round _
  have hhandles : (((p.after later).trace.filterMap (Mark.registered? owner)).map Prod.fst).Nodup :=
    recorded'.nodup_handles
  have hnodup := hhandles.sublist ((hsublist.filterMap _).map Prod.fst)
  obtain ⟨hlt, -⟩ := List.getElem?_eq_some_iff.1 hcancelled
  rw [recorded.take_trace_after later hround] at live hnodup
  rw [recorded.slots.2 (live.of_append hnodup (recorded.mem_handles hlt))] at hcancelled
  cases hcancelled

/-- A handle of a registry was given out for one callback only. -/
theorem Recorded.registered_inj {c d : CallbackId} (hc : .registered owner handle c ∈ p.trace)
    (hd : .registered owner handle d ∈ p.trace) : c = d := by
  have hslot (e : CallbackId) (he : .registered owner handle e ∈ p.trace) :
      (handle, e) ∈ p.trace.filterMap (Mark.registered? owner) :=
    List.mem_filterMap.2 ⟨_, he, by simp [Mark.registered?]⟩
  have hsame := List.inj_on_of_nodup_map recorded.nodup_handles (hslot c hc) (hslot d hd) rfl
  exact congrArg Prod.snd hsame

end

/-! ## Cancelling what is installed -/

theorem act_cancelUpdate_installed {p : Program} {handle : String} {index : Nat} {j : ResolverId}
    (hhandle : p.names.handles.get? handle = some index) (hinstalled : p.installed = some j) :
    p.act (.cancelUpdate .installed handle) = p.cancel (.resolver j) index := by
  rw [act, reached, hinstalled, Option.elim_some, hhandle, Option.elim_some]

section
variable {p : Program} (recorded : p.Recorded) {handle : String} {index : Nat}
  (hhandle : p.names.handles.get? handle = some index)
include recorded hhandle

theorem Recorded.keepsFiring_cancelUpdate {j : ResolverId} (hinstalled : p.installed = some j)
    {owner : Owner} {k : Nat} {d : CallbackId} (live : LiveIn p.trace owner k d)
    (hne : (owner, k) ≠ (.resolver j, index)) :
    (p.act (.cancelUpdate .installed handle)).KeepsFiring owner k d := by
  rw [act_cancelUpdate_installed hhandle hinstalled]
  refine (recorded.cancel (.resolver j) index).keepsFiring ?_
  rw [trace_cancel]
  refine liveIn_concat.2 (.inr ⟨live, fun hsame => hne ?_⟩)
  obtain ⟨rfl, rfl⟩ := Mark.cancelled.inj hsame
  rfl

theorem Recorded.cancelsInstalled {i : ResolverId} {c : CallbackId}
    (hregistered : .registered (.resolver i) index c ∈ p.trace) :
    p.CancelsInstalled handle i index c where
  same hinstalled := by
    constructor
    · intro owner k d live hne
      refine recorded.keepsFiring_cancelUpdate hhandle hinstalled live fun hslot => hne ?_
      obtain ⟨before, after, heq, -⟩ := live
      obtain ⟨rfl, rfl⟩ := Prod.mk.inj hslot
      have hd : .registered (.resolver i) k d ∈ p.trace := by simp [heq]
      exact recorded.registered_inj hd hregistered
    · rw [act_cancelUpdate_installed hhandle hinstalled]
      refine (recorded.cancel (.resolver i) index).silent ?_
      rw [(onlyCancels p (.resolver i) index).self]
      have hmember : index ∈ (p.trace.filterMap (Mark.registered? (.resolver i))).map Prod.fst :=
        List.mem_map.2 ⟨(index, c), List.mem_filterMap.2
          ⟨_, hregistered, by simp [Mark.registered?]⟩, rfl⟩
      rw [recorded.handles] at hmember
      have hlt : index < (p.registry (.resolver i)).slots.length := List.mem_range.1 hmember
      rw [List.getElem?_eq_getElem hlt, Option.map_some]
  other j hinstalled owner k d live hne :=
    recorded.keepsFiring_cancelUpdate hhandle hinstalled live hne
  nothing hinstalled := by rw [act, reached, hinstalled, Option.elim_none]

end

/-- Registering marks the handle that is answered. -/
theorem registered_mem_onUpdate (p : Program) (i : ResolverId) (name : String)
    (callback : Callback) (now : Bool) :
    .registered (.resolver i) (p.onUpdate i callback now).2.2 p.callbacks.length ∈
      (holdRegistered name (p.onUpdate i callback now)).trace := by
  have registered := registered_onUpdate p i callback now
  obtain ⟨new, hnew, -⟩ := registered.trace
  have hheld : (holdRegistered name (p.onUpdate i callback now)).trace =
      (p.onUpdate i callback now).1.trace := by
    obtain ⟨q, _ | _, index⟩ := p.onUpdate i callback now <;> rfl
  rw [hheld, hnew, registered.handle]
  exact List.mem_append_right _ (List.mem_cons_self ..)

/-- A run in the middle of which a callback is registered through the global registry. -/
def registering (before : List Action) (name : String) (callback : Callback) (now : Bool)
    (between : List Action) : List Action :=
  before ++ .onUpdate .installed name callback now :: between

/-- A callback is registered through the global registry, and its handle is cancelled through the
global registry after anything else. If the same resolver is installed then no callback but that one
is stopped. If another one is installed then no callback is stopped but that under the same index of
the other one, and if none is installed then nothing changes. -/
theorem cancel_stops_installed_slot (before between : List Action) (i : ResolverId)
    (name handle : String) (callback : Callback) (now : Bool)
    (hinstalled : (ofRun before).installed = some i)
    (hhandle : (ofRun (registering before name callback now between)).names.handles.get? handle =
      some ((ofRun before).onUpdate i callback now).2.2) :
    (ofRun (registering before name callback now between)).CancelsInstalled handle i
      ((ofRun before).onUpdate i callback now).2.2 (ofRun before).callbacks.length := by
  obtain ⟨recorded, -⟩ := lawful_after {} (registering before name callback now between)
    recorded_start
  refine recorded.cancelsInstalled hhandle ?_
  have hact : (ofRun before).act (.onUpdate .installed name callback now) =
      holdRegistered name ((ofRun before).onUpdate i callback now) := by
    rw [act, reached, hinstalled, Option.elim_some]
  obtain ⟨new, hnew, -⟩ := (onward_after (holdRegistered name
    ((ofRun before).onUpdate i callback now)) between).added
  rw [registering, after_append, after_cons, ← ofRun, hact, hnew]
  exact List.mem_append_left _ (registered_mem_onUpdate (ofRun before) i name callback now)

/-- Two resolvers with a file each, of which the first one is installed. -/
def twoFiles : List Action :=
  [.writeFile "a.json" (some "[\x7b\"version\":1,\"end\":true\x7d]"),
    .writeFile "b.json" (some "[\x7b\"version\":5,\"end\":true\x7d]"),
    .openFile "a" "a.json" none Facts.none, .openFile "b" "b.json" none Facts.none,
    .install (.named "a")]

/-- A callback is registered with what is installed, and another one with another resolver, which
is installed next. -/
def replacedMeanwhile : List Action :=
  registering twoFiles "h" (fun _ => .record "a" .done) false
    [.install (.named "b"), .onUpdate (.named "b") "g" (fun _ => .record "b" .done) false]

/-- The same with the first resolver installed again. -/
def installedAgain : List Action :=
  registering twoFiles "h" (fun _ => .record "a" .done) false
    [.install (.named "b"), .onUpdate (.named "b") "g" (fun _ => .record "b" .done) false,
      .install (.named "a")]

theorem cancel_stops_installed_slot_replaced :
    (ofRun replacedMeanwhile).installed = some 1 ∧
    ((ofRun replacedMeanwhile).act (.cancelUpdate .installed "h")).KeepsFiring (.resolver 0) 0 0 ∧
    (ofRun installedAgain).installed = some 0 ∧ (ofRun installedAgain).StopsOnly "h" 0 ∧
    ((ofRun installedAgain).act (.cancelUpdate .installed "h")).Silent (.resolver 0) 0 := by
  have before : (ofRun twoFiles).installed = some 0 := by decide +kernel
  have id : (ofRun twoFiles).callbacks.length = 0 := by decide +kernel
  have index : ((ofRun twoFiles).onUpdate 0 (fun _ => .record "a" .done) false).2.2 = 0 := by
    decide +kernel
  have replaced := cancel_stops_installed_slot twoFiles
    [.install (.named "b"), .onUpdate (.named "b") "g" (fun _ => .record "b" .done) false] 0 "h" "h"
    (fun _ => .record "a" .done) false before (by decide +kernel)
  have again := cancel_stops_installed_slot twoFiles
    [.install (.named "b"), .onUpdate (.named "b") "g" (fun _ => .record "b" .done) false,
      .install (.named "a")] 0 "h" "h"
    (fun _ => .record "a" .done) false before (by decide +kernel)
  rw [index, id] at replaced again
  have other : (ofRun replacedMeanwhile).installed = some 1 := by decide +kernel
  have same : (ofRun installedAgain).installed = some 0 := by decide +kernel
  have marks : (ofRun replacedMeanwhile).trace =
      [.registered (.resolver 0) 0 0, .registered (.resolver 1) 0 1] := by decide +kernel
  obtain ⟨stopsOnly, silent⟩ := again.same same
  have live : LiveIn (ofRun replacedMeanwhile).trace (.resolver 0) 0 0 :=
    ⟨[], [.registered (.resolver 1) 0 1], marks, by decide⟩
  have keepsFiring := replaced.other 1 other (.resolver 0) 0 0 live (by decide)
  exact ⟨other, keepsFiring, same, stopsOnly, silent⟩

/-- The handle of a callback of the first resolver stops a callback of the second one. -/
theorem not_stopsOnly_replaced :
    (ofRun twoFiles).installed = some 0 ∧
    (ofRun replacedMeanwhile).names.handles.get? "h" =
      some ((ofRun twoFiles).onUpdate 0 (fun _ => .record "a" .done) false).2.2 ∧
    ¬ (ofRun replacedMeanwhile).StopsOnly "h" (ofRun twoFiles).callbacks.length := by
  refine ⟨by decide +kernel, by decide +kernel, fun stopsOnly => ?_⟩
  have marks : (ofRun replacedMeanwhile).trace =
      [.registered (.resolver 0) 0 0, .registered (.resolver 1) 0 1] := by decide +kernel
  have live : LiveIn (ofRun replacedMeanwhile).trace (.resolver 1) 0 1 :=
    ⟨[.registered (.resolver 0) 0 0], [], marks, List.not_mem_nil⟩
  have called := stopsOnly (.resolver 1) 0 1 live (by decide +kernel) [.reload (.named "b")] 3
    (by decide +kernel) (by decide +kernel) (by decide +kernel)
  have none : (0, 1) ∉ callsOf 3 (((ofRun replacedMeanwhile).act
      (.cancelUpdate .installed "h")).after [.reload (.named "b")]).trace := by decide +kernel
  exact none called

end LayeredSettings.Program
