import LayeredSettings.Proofs.Document.Faults
import LayeredSettings.Proofs.Program.EventReload
import LayeredSettings.Proofs.Program.Frame
import LayeredSettings.Proofs.Program.Sessions

/-!
Reloads that fail.

A failure is told, to the caller or to the log, and leaves everything else as it is. So any number
of failures has no effect on the reload that succeeds after them.
-/

namespace LayeredSettings

/-- What a step from outside does to the files; only for such steps. -/
def Action.outside? : Action → Option (FileStore → FileStore)
  | .writeFile path content => some (·.write path content)
  | .replaceFile path staging content => some fun files =>
    (files.write staging content).moveFile staging path
  | .removeDirectory path => some (·.removeDirectory path)
  | .changeFiles change => some change
  | .send .. => some id
  | .close _ => some id
  | _ => none

def Action.isOutside (a : Action) : Bool := a.outside?.isSome

namespace Program

/-- Why a reload fails. -/
inductive ReloadFault (p : Program) (i : ResolverId) : Fault → Prop
  | noSource : p.source? i = none → ReloadFault p i .noSource
  | unreadable {source : Source} {cause : ReadFault} : p.source? i = some source →
    p.files.readText source.path = .error cause → ReloadFault p i (.load source.path cause)
  | noYaml {source : Source} {text : String} : p.source? i = some source → source.format = .yaml →
    p.files.readText source.path = .ok text → Value.readYaml? text = none → ReloadFault p i .yaml
  | noJson {source : Source} {text : String} : p.source? i = some source → source.format = .json →
    p.files.readText source.path = .ok text → Value.readJson? text = none → ReloadFault p i .json
  | invalid {source : Source} {text : String} {v : Value} {fault : Fault} :
    p.source? i = some source → p.files.readText source.path = .ok text →
    source.format.decode text = .ok v → Document.ofValue v = .error fault →
    fault.isValidation = true → ReloadFault p i fault

theorem snd_reloadDocument (p : Program) (i : ResolverId) :
    (∃ source, p.source? i = some source ∧ ∀ fault,
      (p.reloadDocument i).2 = .error fault ↔ source.load p.files = .error fault) ∨
    p.source? i = none ∧ (p.reloadDocument i).2 = .error .noSource := by
  unfold source? reloadDocument
  split
  · rename_i hnone
    simp [hnone]
  · rename_i r hr
    rw [hr, Option.bind_some]
    split
    · rename_i hsource
      exact .inr ⟨hsource, rfl⟩
    · rename_i source hsource
      refine .inl ⟨source, hsource, fun fault => ?_⟩
      split <;> simp [*]

theorem load_eq_error_iff {source : Source} {files : FileStore} {fault : Fault} :
    source.load files = .error fault ↔
      (∃ cause, files.readText source.path = .error cause ∧ .load source.path cause = fault) ∨
      ∃ text, files.readText source.path = .ok text ∧
        (source.format.decode text = .error fault ∨
          ∃ v, source.format.decode text = .ok v ∧ Document.ofValue v = .error fault) := by
  unfold Source.load Document.parse
  rw [Except.bind_eq_error_iff, Except.mapError_eq_error_iff]
  simp only [Except.mapError_eq_ok_iff, Except.bind_eq_error_iff]

theorem reload_eq_error_iff_fault {p : Program} {i : ResolverId} {fault : Fault} :
    (p.reload i).2 = .error fault ↔ ReloadFault p i fault := by
  rw [reload_eq_error_iff]
  rcases p.snd_reloadDocument i with ⟨source, hsource, hload⟩ | ⟨hsource, hanswer⟩
  · rw [hload, load_eq_error_iff]
    constructor
    · rintro (⟨cause, hread, rfl⟩ | ⟨text, hread, hdecode | ⟨v, hdecode, hvalue⟩⟩)
      · exact .unreadable hsource hread
      · rcases Format.decode_eq_error_iff.1 hdecode with
          ⟨hformat, hnone, rfl⟩ | ⟨hformat, hnone, rfl⟩
        · exact .noYaml hsource hformat hread hnone
        · exact .noJson hsource hformat hread hnone
      · exact .invalid hsource hread hdecode hvalue (Document.isValidation_of_ofValue hvalue)
    · intro hfault
      cases hfault with
      | noSource hnone =>
        rw [hsource] at hnone
        cases hnone
      | unreadable hsame hread =>
        cases hsource.symm.trans hsame
        exact .inl ⟨_, hread, rfl⟩
      | noYaml hsame hformat hread hnone =>
        cases hsource.symm.trans hsame
        exact .inr ⟨_, hread, .inl (Format.decode_eq_error_iff.2 (.inl ⟨hformat, hnone, rfl⟩))⟩
      | noJson hsame hformat hread hnone =>
        cases hsource.symm.trans hsame
        exact .inr ⟨_, hread, .inl (Format.decode_eq_error_iff.2 (.inr ⟨hformat, hnone, rfl⟩))⟩
      | invalid hsame hread hdecode hvalue _ =>
        cases hsource.symm.trans hsame
        exact .inr ⟨_, hread, .inr ⟨_, hdecode, hvalue⟩⟩
  · rw [hanswer]
    constructor
    · intro hfault
      cases hfault
      exact .noSource hsource
    · intro hfault
      cases hfault with
      | noSource _ => rfl
      | unreadable hsome => cases hsource.symm.trans hsome
      | noYaml hsome => cases hsource.symm.trans hsome
      | noJson hsome => cases hsource.symm.trans hsome
      | invalid hsome => cases hsource.symm.trans hsome

/-! ## Events -/

/-- The event that the reload task of a watch of a resolver takes next. -/
def Next (p : Program) (i : ResolverId) (w : WatchId) (e : WatchEvent) : Prop :=
  ∃ watch later, p.watches[w]? = some watch ∧ watch.resolver = i ∧ watch.events = e :: later

instance (p : Program) (i : ResolverId) (w : WatchId) (e : WatchEvent) : Decidable (p.Next i w e) :=
  decidable_of_iff
    (p.watches[w]?.any fun watch => watch.resolver = i ∧ watch.events.head? = some e) (by
      unfold Next
      cases p.watches[w]? <;> simp [List.head?_eq_some_iff])

theorem looksSame_taken (p : Program) (w : WatchId) (events : List WatchEvent) {d : Diagnostic} :
    LooksSame p ((p.modifyWatch w fun watch => { watch with events }).log d) := by
  have htasks : (p.watches.modify w fun watch => { watch with events }).map Watch.task =
      p.watches.map Watch.task := by
    apply map_modify_of_eq
    exact fun _ => rfl
  have hsame : LooksSame p { p with
      watches := p.watches.modify w fun watch => { watch with events }
      history := .logged d :: p.history } := .of_tasks htasks rfl
  exact hsame

theorem handleEvent_of_fault {p : Program} {i : ResolverId} {w : WatchId} {r : Resolver}
    {fault : Fault} (next : p.Next i w .changed) (used : p.inUse i = true)
    (hr : p.resolvers[i]? = some r) (hfault : (p.reload i).2 = .error fault) :
    LooksSame p (p.handleEvent w) ∧
      (p.handleEvent w).history = .logged (.reloadFailed i fault r.version) :: p.history := by
  obtain ⟨watch, later, hw, rfl, hevents⟩ := next
  have hreload := reload_eq_error_iff.1 hfault
  have hhandled := handleEvent_changed hw hevents used hr
  cases hq : p.reloadDocument watch.resolver with
  | mk q answer =>
    rw [hq] at hreload hhandled
    cases hreload
    obtain rfl := reloadDocument_eq_error hq
    rw [hhandled]
    exact ⟨looksSame_taken q w later, rfl⟩

theorem handleEvent_of_report {p : Program} {i : ResolverId} {w : WatchId} {message : String}
    (next : p.Next i w (.fault message)) :
    LooksSame p (p.handleEvent w) ∧
      (p.handleEvent w).history = .logged (.watchFault message) :: p.history := by
  obtain ⟨watch, later, hw, -, hevents⟩ := next
  have hhandled : p.handleEvent w =
      (p.modifyWatch w fun watch => { watch with events := later }).log (.watchFault message) := by
    simp only [handleEvent, hw, hevents]
  rw [hhandled]
  exact ⟨looksSame_taken p w later, rfl⟩

/-! ## What failures leave to a later reload -/

theorem Next.fails {p : Program} {i : ResolverId} {w : WatchId} {fault : Fault}
    (next : p.Next i w .changed) (hfault : (p.reload i).2 = .error fault) :
    Fails p (.takeEvent w) := by
  obtain ⟨watch, later, hw, rfl, hevents⟩ := next
  exact .changed hw hevents (reload_eq_error_iff.1 hfault)

/-- Failures in any number, and steps from outside between them. -/
inductive Setbacks : Program → List Action → Prop
  | nil (p : Program) : Setbacks p []
  | fails {p : Program} {a : Action} {trail : List Action} : Fails p a → Setbacks (p.act a) trail →
    Setbacks p (a :: trail)
  | outside {p : Program} {a : Action} {trail : List Action} : a.isOutside = true →
    Setbacks (p.act a) trail → Setbacks p (a :: trail)

theorem bare_send (p : Program) (w : WatchId) (e : WatchEvent) : (p.send w e).1.bare = p.bare := by
  unfold send
  split <;> rfl

theorem bare_notify (p : Program) (names : Option (List String)) :
    (p.notify names).bare = p.bare := by
  unfold notify
  generalize List.range p.watches.length = watches
  induction watches generalizing p with
  | nil => rfl
  | cons w watches ih =>
    rw [List.foldl_cons, ih]
    split
    · exact bare_send p w .changed
    · rfl

theorem bare_removeDirectory (p : Program) (path : String) :
    (p.removeDirectory path).bare = { p.bare with files := p.files.removeDirectory path } := by
  unfold removeDirectory
  split
  · rfl
  · rename_i hnone
    have hfiles : p.files.removeDirectory path = p.files := by
      rw [FileStore.removeDirectory, hnone]
    rw [hfiles]
    rfl

theorem bare_fails {p : Program} {a : Action} (h : Fails p a) : (p.act a).bare = p.bare := by
  cases h with
  | @reload settings i fault hreached hfault =>
    rw [act, hreached]
    exact congrArg bare (fst_reload_of_error hfault)
  | @changed w watch later fault hw hevents hfault =>
    simp only [act, handleEvent, hw, hevents]
    split
    · rw [reloadDocument_modifyWatch]
      cases hq : p.reloadDocument watch.resolver with
      | mk q answer =>
        rw [hq] at hfault
        cases hfault
        obtain rfl := reloadDocument_eq_error hq
        rfl
    · exact bare_endTask _ w
  | @reported w watch later message hw hevents =>
    simp only [act, handleEvent, hw, hevents]
    rfl

theorem bare_outside {p : Program} {a : Action} {change : FileStore → FileStore}
    (h : a.outside? = some change) : (p.act a).bare = { p.bare with files := change p.files } := by
  cases a with
  | writeFile path content =>
    cases h
    exact bare_notify _ _
  | replaceFile path staging content =>
    cases h
    have hwritten : (p.writeFile staging content).bare =
        { p.bare with files := p.files.write staging content } := bare_notify _ _
    have hfiles : (p.writeFile staging content).files = p.files.write staging content :=
      congrArg files hwritten
    refine (bare_notify _ _).trans ?_
    show { (p.writeFile staging content).bare with
      files := (p.writeFile staging content).files.moveFile staging path } = _
    rw [hwritten, hfiles]
  | removeDirectory path =>
    cases h
    exact bare_removeDirectory p path
  | changeFiles change =>
    cases h
    rfl
  | send w e =>
    cases h
    exact bare_send p w e
  | close w =>
    cases h
    rfl
  | _ => cases h

/-- Steps from outside do the same to programs that differ in watches and history only, and failures
make no other difference. -/
theorem Setbacks.bare_after {p q : Program} {trail : List Action} (h : Setbacks p trail)
    (hsame : p.bare = q.bare) :
    (p.after trail).bare = (q.after (trail.filter Action.isOutside)).bare := by
  induction h generalizing q with
  | nil p => exact hsame
  | @fails p a trail hfails _ ih =>
    have hnot : a.isOutside = false := by cases hfails <;> rfl
    rw [List.filter_cons_of_neg (hnot ▸ Bool.false_ne_true), after_cons]
    exact ih ((bare_fails hfails).trans hsame)
  | @outside p a trail houtside _ ih =>
    rw [List.filter_cons_of_pos houtside, after_cons, after_cons]
    obtain ⟨change, hchange⟩ := Option.isSome_iff_exists.1 houtside
    have hfiles : p.files = q.files :=
      show p.bare.files = q.bare.files from congrArg files hsame
    refine ih ?_
    rw [bare_outside hchange, bare_outside hchange, hsame, hfiles]

theorem Setbacks.inUse {p : Program} {trail : List Action} (h : Setbacks p trail)
    (i : ResolverId) : (p.after trail).inUse i = p.inUse i := by
  have hbare : ∀ q : Program, q.inUse i = q.bare.inUse i := fun q => rfl
  induction h with
  | nil p => rfl
  | @fails p a trail hfails _ ih =>
    rw [after_cons, ih, hbare, bare_fails hfails]
    rfl
  | @outside p a trail houtside _ ih =>
    obtain ⟨change, hchange⟩ := Option.isSome_iff_exists.1 houtside
    rw [after_cons, ih, hbare, bare_outside hchange]
    rfl

/-- A reload gives the same answer in two programs and makes the same of them, each among its own
watches and after what has occurred to it. -/
def ReloadsLike (p q : Program) (i : ResolverId) : Prop :=
  ∃ s answer, p.reload i = (p.around s, answer) ∧ q.reload i = (q.around s, answer)

theorem reloadsLike_of_bare_eq {p q : Program} (hsame : p.bare = q.bare) (i : ResolverId) :
    ReloadsLike p q i := by
  refine ⟨(q.bare.reload i).1, (q.bare.reload i).2, ?_, q.reload_eq_around_bare i⟩
  rw [p.reload_eq_around_bare, hsame]

/-- A reload that fails, an event on which one fails, and an event that reports an error change
nothing but the log. After any number of them a reload does what it would have done without them. -/
theorem failures_change_nothing {run : List Action} {settings : Access} {i : ResolverId}
    (held : (ofRun run).reached settings = some i) :
    (∀ fault, ((ofRun run).reload i).2 = .error fault ↔ ReloadFault (ofRun run) i fault) ∧
    (∀ fault, ReloadFault (ofRun run) i fault →
      ((ofRun run).reload i).1 = ofRun run ∧
      ∀ w, (ofRun run).Next i w .changed →
        LooksSame (ofRun run) ((ofRun run).handleEvent w) ∧
        ∃ r, (ofRun run).resolvers[i]? = some r ∧ ((ofRun run).handleEvent w).history =
          .logged (.reloadFailed i fault r.version) :: (ofRun run).history) ∧
    (∀ w message, (ofRun run).Next i w (.fault message) →
      LooksSame (ofRun run) ((ofRun run).handleEvent w) ∧
      ((ofRun run).handleEvent w).history =
        .logged (.watchFault message) :: (ofRun run).history) ∧
    ∀ trail, Setbacks (ofRun run) trail →
      ReloadsLike ((ofRun run).after trail)
        ((ofRun run).after (trail.filter Action.isOutside)) i ∧
      ∀ w watch version, ((ofRun run).after trail).Waits i w watch →
        (((ofRun run).after trail).reload i).2 = .ok version →
        ((ofRun run).after trail).handled w .changed = (((ofRun run).after trail).reload i).1 := by
  have used := inUse_of_reached held
  refine ⟨fun fault => reload_eq_error_iff_fault, fun fault hfault => ?failing,
    fun w message next => handleEvent_of_report next, fun trail setbacks => ?later⟩
  case failing =>
    have hanswer := reload_eq_error_iff_fault.2 hfault
    refine ⟨fst_reload_of_error hanswer, fun w next => ?_⟩
    obtain ⟨watch, later, hw, hown, hevents⟩ := next
    obtain ⟨r, hr⟩ := exists_resolver hw
    rw [hown] at hr
    obtain ⟨hlooks, hhistory⟩ :=
      handleEvent_of_fault ⟨watch, later, hw, hown, hevents⟩ used hr hanswer
    exact ⟨hlooks, r, hr, hhistory⟩
  case later =>
    refine ⟨reloadsLike_of_bare_eq (setbacks.bare_after rfl) i, fun w watch version waits hok => ?_⟩
    have hused : ((ofRun run).after trail).inUse i = true := by rw [setbacks.inUse i, used]
    have hrun : (ofRun run).after trail = ofRun (run ++ trail) := (after_append _ run trail).symm
    rw [hrun] at waits hused hok ⊢
    obtain ⟨r, hr⟩ := exists_resolver waits.found
    rw [waits.own] at hr
    exact handled_changed_of_ok waits hused hr hok

/-- While a watch runs, its file has become unreadable as a document, and the watch hears of it. -/
def broken : List Action :=
  [.writeFile "s.json"
      (some "[\x7b\"name\":\"a\",\"settings\":\x7b\"k\":1\x7d\x7d,\x7b\"end\":true\x7d]"),
    .openFile "s" "s.json" none Facts.none,
    .onUpdate (.named "s") "h" (fun _ => .done) false,
    .startWatch (.named "s") "n" (fun _ => .controlled) true,
    .writeFile "s.json" (some "["), .send 0 .changed]

def brokenThenMended : List Action :=
  [.reload (.named "s"), .takeEvent 0,
    .writeFile "s.json" (some "[\x7b\"version\":2,\"end\":true\x7d]")]

theorem failures_change_nothing_mended :
    (ofRun broken).reached (.named "s") = some 0 ∧
    ReloadFault (ofRun broken) 0 .json ∧
    LooksSame (ofRun broken) ((ofRun broken).handleEvent 0) ∧
    ReloadsLike ((ofRun broken).after brokenThenMended)
      ((ofRun broken).after (brokenThenMended.filter Action.isOutside)) 0 ∧
    (((ofRun broken).after brokenThenMended).reload 0).2 = .ok 2 := by
  have held : (ofRun broken).reached (.named "s") = some 0 := by decide +kernel
  have hanswer : ((ofRun broken).reload 0).2 = .error .json := by decide +kernel
  have hagain : (((ofRun broken).act (.reload (.named "s"))).reload 0).2 = .error .json := by
    decide +kernel
  have next : (ofRun broken).Next 0 0 .changed := by decide +kernel
  have nextAgain : ((ofRun broken).act (.reload (.named "s"))).Next 0 0 .changed := by
    decide +kernel
  have setbacks : Setbacks (ofRun broken) brokenThenMended :=
    .fails (.reload held hanswer) (.fails (nextAgain.fails hagain) (.outside rfl (.nil _)))
  have hfault := ((failures_change_nothing held).1 .json).1 hanswer
  obtain ⟨-, hevent⟩ := (failures_change_nothing held).2.1 .json hfault
  have hlater := (failures_change_nothing held).2.2.2 brokenThenMended setbacks
  exact ⟨held, hfault, (hevent 0 next).1, hlater.1, by decide +kernel⟩

end Program
end LayeredSettings
