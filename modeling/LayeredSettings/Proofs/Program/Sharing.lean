import LayeredSettings.Program.Command
import LayeredSettings.Proofs.Program.Adherence

/-!
Calls through the handles of a resolver.

Whatever is asked through a handle, the handle only says which resolver is meant. So it makes no
difference through which of its handles a resolver is asked, and the one that is installed globally
is one of them.
-/

namespace LayeredSettings

open Program

namespace Command

variable {α β : Type}

/-- What a command answers in a program, and the program afterwards. -/
def exec (x : Command α) (p : Program) : Except CommandFault α × Program := x p

theorem exec_pure (a : α) (p : Program) : (pure a : Command α).exec p = (.ok a, p) := rfl

theorem exec_throw (fault : CommandFault) (p : Program) :
    (throw fault : Command α).exec p = (.error fault, p) := rfl

theorem exec_program (p : Program) : program.exec p = (.ok p, p) := rfl

theorem exec_bind (x : Command α) (f : α → Command β) (p : Program) :
    (x >>= f).exec p = match x.exec p with
      | (.ok a, q) => (f a).exec q
      | (.error fault, q) => (.error fault, q) := by
  unfold exec
  simp only [bind, ExceptT.bind, ExceptT.mk, StateT.bind, ExceptT.bindCont]
  cases x p with
  | mk answer q => cases answer <;> rfl

theorem exec_ofProgram (f : Program → Program × Except Fault α) (p : Program) :
    (ofProgram f).exec p = ((f p).2.mapError .fault, (f p).1) := by
  unfold ofProgram
  rw [exec_bind, exec_program]
  show (ofFault (f p).2).exec (f p).1 = _
  cases (f p).2 <;> rfl

section
variable {table : Names → KeyMap α} {name : String} {p : Program}

theorem exec_find_of_some {a : α} (held : (table p.names).get? name = some a) :
    (find table name).exec p = (.ok a, p) := by
  simp only [find, exec_bind, exec_program, held, exec_pure]

theorem exec_find_of_none (missing : (table p.names).get? name = none) :
    (find table name).exec p = (.error (.unknown name), p) := by
  simp only [find, exec_bind, exec_program, missing, exec_throw]

theorem exec_installed_of_some {i : ResolverId} (held : p.installed = some i) :
    installed.exec p = (.ok i, p) := by
  simp only [installed, exec_bind, exec_program, held, exec_pure]

theorem exec_installed_of_none (missing : p.installed = none) :
    installed.exec p = (.error (.fault .notConfigured), p) := by
  simp only [installed, exec_bind, exec_program, missing, exec_throw]

end
end Command

/-! ## Calls -/

/-- What is asked of settings through a handle. -/
inductive Call
  /-- The document and its version, the facts, and the file. -/
  | look
  | clone (copy : String)
  | get (path : List String)
  | getSafe (path : List String)
  | getAs (path : List String) (shape : Shape)
  | snapshot (copy : String)
  | onUpdate (name : String) (callback : Callback) (now : Bool)
  | cancel (handle : String)
  | reload
  | subscribe (name : String)
  | watch (name : String) (notifier : Notifier) (hasRuntime : Bool)
  | watchFile (hasRuntime : Bool)
  | stop
  | status
  | install

namespace Call

/-- What is answered. A safe lookup tells the reason, too, if nothing could be looked up. -/
def Answer : Call → Type
  | .look => Resolver
  | .clone _ => Resolver
  | .get _ => Value
  | .getSafe _ => Option Fault × Option Value
  | .getAs _ _ => Json
  | .snapshot _ => Document
  | .onUpdate .. => Nat
  | .cancel _ => Unit
  | .reload => Int64
  | .subscribe _ => Int64
  | .watch .. => Unit
  | .watchFile _ => Unit
  | .stop => Bool
  | .status => WatchStatus
  | .install => Unit

/-- What is asked of a resolver. -/
def on (i : ResolverId) : (c : Call) → Command c.Answer
  | .look => Command.resolver i
  | .clone copy => do
    Command.holdSettings copy i
    Command.resolver i
  | .get path => Command.ofProgram fun p => p.get i path
  | .getSafe path => do
    return (none, ← Command.ofProgram fun p => (p.getSafe i path).map id .ok)
  | .getAs path shape => Command.ofProgram fun p => p.getAs i path shape
  | .snapshot copy => do
    let r ← Command.resolver i
    Command.rename fun _ n => { n with snapshots := n.snapshots.insert copy r.live }
    return r.live
  | .onUpdate name callback now => Command.register i name callback now
  | .cancel handle => do
    let index ← Command.find Names.handles handle
    Command.change fun p => p.cancel (.resolver i) index
  | .reload => Command.ofProgram fun p => p.reload i
  | .subscribe name => do
    Command.rename fun p n => { n with receivers := n.receivers.insert name (p.receiver i) }
    return (← Command.resolver i).latest.document.version
  | .watch name notifier hasRuntime => do
    let w ← Command.ofProgram fun p => p.startWatch i (fun _ => notifier) hasRuntime
    Command.rename fun _ n => { n with notifiers := n.notifiers.insert name w }
  | .watchFile hasRuntime => do
    let _ ← Command.ofProgram fun p => p.watchFile i hasRuntime p.files.leadsSomewhere
  | .stop => do
    let (p, stopped) := (← Command.program).stopWatch i
    set p
    Command.settle
    if stopped then Command.change (·.log (.watchStopped i))
    return stopped
  | .status => do return (← Command.program).watchStatus i
  | .install => Command.change fun p => { p with installed := some i }

/-- A resolver, if there is one. -/
def found (p : Program) (i : ResolverId) : Except CommandFault Resolver :=
  p.resolvers[i]?.elim (.error (.unknown (toString i))) .ok

/-- The answer to a registration. -/
def registered : Outcome × Nat → Except CommandFault Nat
  | (.completed, handle) => .ok handle
  | (.panicked _, _) => .error .panicked

/-- What a resolver answers, whatever changes meanwhile. -/
def answer (p : Program) (i : ResolverId) : (c : Call) → Except CommandFault c.Answer
  | .look => found p i
  | .clone _ => found p i
  | .get path => (p.get i path).2.mapError .fault
  | .getSafe path => .ok (none, (p.getSafe i path).2)
  | .getAs path shape => (p.getAs i path shape).2.mapError .fault
  | .snapshot _ => (found p i).map (·.live)
  | .onUpdate _ callback now => registered (p.onUpdate i callback now).2
  | .cancel handle =>
    if (p.names.handles.get? handle).isSome then .ok () else .error (.unknown handle)
  | .reload => (p.reload i).2.mapError .fault
  | .subscribe _ => (found p i).map (·.latest.document.version)
  | .watch _ notifier hasRuntime =>
    ((p.startWatch i (fun _ => notifier) hasRuntime).2.map fun _ => ()).mapError .fault
  | .watchFile hasRuntime =>
    ((p.watchFile i hasRuntime p.files.leadsSomewhere).2.map fun _ => ()).mapError .fault
  | .stop => .ok (p.stopWatch i).2
  | .status => .ok (p.watchStatus i)
  | .install => .ok ()

/-- The command for a call through a handle that is held under a name. -/
def named (name : String) : (c : Call) → Command c.Answer
  | .look => Command.named name
  | .clone copy => Command.clone name copy
  | .get path => Command.get name path
  | .getSafe path => do return (none, ← Command.getSafe name path)
  | .getAs path shape => Command.getAs name path shape
  | .snapshot copy => Command.snapshot name copy
  | .onUpdate handle callback now => Command.onUpdate name handle callback now
  | .cancel handle => Command.cancel name handle
  | .reload => Command.reload name
  | .subscribe receiver => Command.subscribe name receiver
  | .watch as notifier hasRuntime => Command.watch name as notifier hasRuntime
  | .watchFile hasRuntime => Command.watchFile name hasRuntime
  | .stop => Command.stop name
  | .status => Command.status name
  | .install => Command.install name

/-- The command for a call through the handle that is installed. Lookups, registrations and
cancellations have commands of their own; for the other calls one gets the handle first. -/
def installed : (c : Call) → Command c.Answer
  | .get path => Command.getInstalled path
  | .getSafe path => Command.getSafeInstalled path
  | .onUpdate name callback now => Command.onUpdateInstalled name callback now
  | .cancel handle => Command.cancelInstalled handle
  | c => do c.on (← Command.installed)

def through (c : Call) : Access → Command c.Answer
  | .named name => c.named name
  | .installed => c.installed

theorem exec_resolver (i : ResolverId) (p : Program) :
    (Command.resolver i).exec p = (found p i, p) := by
  unfold found
  rw [Command.resolver, Command.exec_bind, Command.exec_program]
  dsimp only
  cases p.resolvers[i]? <;> rfl

theorem fst_exec_on (p : Program) (i : ResolverId) (c : Call) :
    ((c.on i).exec p).1 = c.answer p i := by
  cases c with
  | look => exact congrArg Prod.fst (exec_resolver i p)
  | clone copy => exact congrArg Prod.fst (exec_resolver i (p.holdSettings copy i))
  | get path => exact congrArg Prod.fst (Command.exec_ofProgram _ p)
  | getSafe path => rfl
  | getAs path shape => exact congrArg Prod.fst (Command.exec_ofProgram _ p)
  | snapshot copy =>
    refine (congrArg Prod.fst (Command.exec_bind (Command.resolver i) _ p)).trans ?_
    rw [exec_resolver]
    dsimp only [answer]
    cases found p i <;> rfl
  | onUpdate name callback now =>
    refine (congrArg Prod.fst (Command.exec_bind Command.program _ p)).trans ?_
    rw [Command.exec_program]
    dsimp only [answer]
    cases p.onUpdate i callback now with
    | mk q answer =>
      obtain ⟨outcome, handle⟩ := answer
      cases outcome <;> rfl
  | cancel handle =>
    refine (congrArg Prod.fst (Command.exec_bind (Command.find Names.handles handle) _ p)).trans ?_
    dsimp only [answer]
    cases known : p.names.handles.get? handle with
    | none => rw [Command.exec_find_of_none known]; rfl
    | some index => rw [Command.exec_find_of_some known]; rfl
  | reload => exact congrArg Prod.fst (Command.exec_ofProgram _ p)
  | subscribe name =>
    have kept : found (p.holdReceiver name (p.receiver i)) i = found p i := rfl
    refine (congrArg Prod.fst (Command.exec_bind (Command.resolver i) _
      (p.holdReceiver name (p.receiver i)))).trans ?_
    rw [exec_resolver, kept]
    dsimp only [answer]
    cases found p i <;> rfl
  | watch name notifier hasRuntime =>
    refine (congrArg Prod.fst (Command.exec_bind (Command.ofProgram fun p =>
      p.startWatch i (fun _ => notifier) hasRuntime) _ p)).trans ?_
    rw [Command.exec_ofProgram]
    dsimp only [answer]
    cases (p.startWatch i (fun _ => notifier) hasRuntime).2 <;> rfl
  | watchFile hasRuntime =>
    refine (congrArg Prod.fst (Command.exec_bind (Command.ofProgram fun p =>
      p.watchFile i hasRuntime p.files.leadsSomewhere) _ p)).trans ?_
    rw [Command.exec_ofProgram]
    dsimp only [answer]
    cases (p.watchFile i hasRuntime p.files.leadsSomewhere).2 <;> rfl
  | stop =>
    show (Command.exec (do
      if (p.stopWatch i).2 then Command.change (·.log (.watchStopped i))
      return (p.stopWatch i).2) (p.stopWatch i).1.settle).1 = .ok (p.stopWatch i).2
    cases (p.stopWatch i).2 <;> rfl
  | status => rfl
  | install => rfl

section
variable {p : Program} {i : ResolverId}

theorem exec_named {name : String} (held : p.names.settings.get? name = some i) (c : Call) :
    (c.named name).exec p = (c.on i).exec p := by
  have found : (Command.settings name).exec p = (.ok i, p) := Command.exec_find_of_some held
  have asked {α : Type} (f : ResolverId → Command α) :
      (do f (← Command.settings name)).exec p = (f i).exec p := by
    rw [Command.exec_bind, found]
  -- Where more than one step comes after the handle has been found, they are put together again.
  have then_ {α β : Type} (f : ResolverId → Command α) (g : α → Command β) :
      ((Command.settings name >>= f) >>= g).exec p = (f i >>= g).exec p := by
    rw [Command.exec_bind, asked, Command.exec_bind]
  cases c with
  | getSafe path => exact then_ _ _
  | snapshot copy => exact then_ _ _
  | _ => exact asked _

theorem exec_installed (held : p.installed = some i) (c : Call) :
    c.installed.exec p = (c.on i).exec p := by
  have found : Command.installed.exec p = (.ok i, p) := Command.exec_installed_of_some held
  have asked {α : Type} (f : ResolverId → Command α) :
      (do f (← Command.installed)).exec p = (f i).exec p := by
    rw [Command.exec_bind, found]
  cases c with
  | getSafe path =>
    have safe : (Command.getSafeInstalled path).exec p =
        (do return (none, ← Command.ofProgram fun p => (p.getSafe i path).map id .ok)).exec p := by
      simp only [Command.getSafeInstalled, Command.exec_bind, Command.exec_program, held]
    exact safe
  | cancel handle =>
    have cancelled : (Command.cancelInstalled handle).exec p =
        (do
          let index ← Command.find Names.handles handle
          Command.change fun p => p.cancel (.resolver i) index).exec p := by
      rw [Command.cancelInstalled, Command.exec_bind, Command.exec_bind]
      cases known : p.names.handles.get? handle with
      | none => rw [Command.exec_find_of_none known]
      | some index =>
        rw [Command.exec_find_of_some known]
        exact asked _
    exact cancelled
  | _ => exact asked _

/-- A call through a handle asks the resolver that it refers to. -/
theorem exec_through {access : Access} (reached : p.reached access = some i) (c : Call) :
    (c.through access).exec p = (c.on i).exec p := by
  cases access with
  | named name => exact exec_named reached c
  | installed => exact exec_installed reached c

end

/-- What is answered when nothing is installed. -/
def unconfigured : (c : Call) → Except CommandFault c.Answer
  | .getSafe _ => .ok (some .notConfigured, none)
  | _ => .error (.fault .notConfigured)

/-- When nothing is installed, a call through the global registry changes nothing. To cancel takes a
handle. -/
theorem exec_unconfigured {p : Program} (missing : p.installed = none) {c : Call}
    (handle : ∀ name, c = .cancel name → (p.names.handles.get? name).isSome = true) :
    c.installed.exec p = (c.unconfigured, p) := by
  have nothing : Command.installed.exec p = (.error (.fault .notConfigured), p) :=
    Command.exec_installed_of_none missing
  have failed {α : Type} (f : ResolverId → Command α) :
      (do f (← Command.installed)).exec p = (.error (.fault .notConfigured), p) := by
    rw [Command.exec_bind, nothing]
  cases c with
  | getSafe path =>
    have safe : (Command.getSafeInstalled path).exec p = (.ok (some .notConfigured, none), p) := by
      simp only [Command.getSafeInstalled, Command.exec_bind, Command.exec_program, missing]
      rfl
    exact safe
  | cancel name =>
    obtain ⟨index, known⟩ := Option.isSome_iff_exists.1 (handle name rfl)
    have cancelled : (Command.cancelInstalled name).exec p =
        (.error (.fault .notConfigured), p) := by
      rw [Command.cancelInstalled, Command.exec_bind, Command.exec_find_of_some known]
      exact failed _
    exact cancelled
  | _ => exact failed _

end Call

/-! ## Sessions -/

/-- A step of a session: a call through a handle, or whatever else there is to do. -/
inductive Request : Type 1
  | call (access : Access) (c : Call)
  | other {α : Type} (command : Command α)

namespace Request

def Answer : Request → Type
  | .call _ c => c.Answer
  | @other α _ => α

def command : (request : Request) → Command request.Answer
  | .call access c => c.through access
  | .other command => command

/-- The answers to one request after the other, and the program afterwards. -/
def session : List Request → Program → List (Σ α : Type, Except CommandFault α) × Program
  | [], p => ([], p)
  | request :: later, p =>
    let done := request.command.exec p
    let rest := session later done.2
    (⟨request.Answer, done.1⟩ :: rest.1, rest.2)

/-- In the second session some calls go through other handles of the same resolvers. -/
inductive Exchanged : Program → List Request → List Request → Prop
  | nil (p : Program) : Exchanged p [] []
  | same {p : Program} {later later' : List Request} (request : Request) :
    Exchanged (request.command.exec p).2 later later' →
    Exchanged p (request :: later) (request :: later')
  | call {p : Program} {later later' : List Request} {access access' : Access} {i : ResolverId}
    (c : Call) : p.reached access = some i → p.reached access' = some i →
    Exchanged ((c.through access).exec p).2 later later' →
    Exchanged p (.call access c :: later) (.call access' c :: later')

theorem Exchanged.session_eq {p : Program} {requests requests' : List Request}
    (h : Exchanged p requests requests') : session requests' p = session requests p := by
  induction h with
  | nil p => rfl
  | same request _ ih => simp only [session, ih]
  | @call p later later' access access' i c reached reached' _ ih =>
    have same : (c.through access').exec p = (c.through access).exec p := by
      rw [c.exec_through reached', c.exec_through reached]
    have first : Command.exec (command (.call access' c)) p = (c.through access).exec p := same
    simp only [session]
    rw [first, ih]
    rfl

end Request
end LayeredSettings
