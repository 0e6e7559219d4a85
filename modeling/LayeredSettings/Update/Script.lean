import LayeredSettings.Fault

/-!
Callbacks, as what they do when they run.

A callback asks for one thing after another, and what it asks for next may depend on the answers so
far. What it refers to by name is looked up when it runs; where there is nothing under a name, it is
told so.
-/

namespace LayeredSettings

/-- How settings are reached. -/
inductive Access
  | named (name : String)
  | installed
  deriving DecidableEq

/-- A change of who holds handles of settings. -/
inductive Rebinding
  | clone (settings : Access) (copy : String)
  | drop (name : String)
  | install (settings : Access)
  | uninstall

inductive Script
  | done
  /-- Ends the run with a panic, whose payload may be other than text. -/
  | panic (message : Option String)
  | record (text : String) (next : Script)
  | version (settings : String) (next : Option Int64 → Script)
  /-- Asks for the handle that is held under a name. -/
  | handle (name : String) (next : Option Nat → Script)
  | cancel (owner : String) (handle : Nat) (next : Script)
  /-- Registers a callback, which may be run at once; each of its runs gets its number, counted from
  one. If the first run panics then so does this one. -/
  | register (owner : String) (callback : Nat → Script) (now : Bool) (next : Option Nat → Script)
  /-- Runs a round of a registry. -/
  | invoke (registry : String) (next : Option Nat → Script)
  | reload (settings : String) (next : Option (Except Fault Int64) → Script)
  | rebind (change : Rebinding) (next : Script)

/-- A callback: what it does on each of its runs, which are counted from one. -/
abbrev Callback := Nat → Script

/-- How a run of a callback ended. -/
inductive Outcome
  | completed
  | panicked (message : Option String)

/-- A callback that does a few things in a fixed order, given by their parameters. -/
inductive Plan
  | mk (text : Option String) (versionOf : Option String) (times : Option Nat)
    (owner : Option String) (cancel : Option String) (register : Option Plan)
    (reload : Option String) (panic : Option (Option String))
  deriving Inhabited

namespace Plan

def reloadReport : Except Fault Int64 → String
  | .ok version => "reloaded " ++ toString version.toInt
  | .error _ => "reload failed"

/-- Every run records the text; only the first `times` runs do more. -/
def callback : Plan → Callback
  | .mk text versionOf times owner cancel register reload panic => fun run =>
    let finish : Script := match panic with
      | some message => .panic message
      | none => .done
    let reloading : Script := match reload with
      | some settings => .reload settings fun answer =>
        match answer with
        | some result => .record (reloadReport result) finish
        | none => finish
      | none => finish
    let registering : Script := match register, owner with
      | some plan, some owner => .register owner plan.callback false fun _ => reloading
      | _, _ => reloading
    let cancelling : Script := match cancel, owner with
      | some handle, some owner => .handle handle fun index? =>
        match index? with
        | some index => .cancel owner index registering
        | none => registering
      | _, _ => registering
    let acting : Script := if times.all (run ≤ ·) then cancelling else .done
    match text, versionOf with
    | some text, some settings => .version settings fun version? =>
      match version? with
      | some version => .record (text ++ "@" ++ toString version.toInt) acting
      | none => .record text acting
    | some text, none => .record text acting
    | none, _ => acting

end Plan
end LayeredSettings
