import LayeredSettings.Proofs.Program.Failures
import LayeredSettings.Proofs.Program.LaterSteps
import LayeredSettings.Proofs.Program.TypedReads
import LayeredSettings.Proofs.Toml.Canonical

/-!
Bootstrapping from a configuration.

It is loading the document of the configuration and, if it says so, starting to watch it. Until the
watch takes an event it makes no difference to what a handle answers.
-/

namespace LayeredSettings

theorem Config.validate_eq_ok_iff {c c' : Config} :
    c.validate = .ok c' ↔
      c' = c ∧ c.path ≠ "" ∧ c.watch.pollInterval ≠ 0 ∧ ∃ facts, c.facts = .ok facts := by
  unfold validate
  by_cases empty : c.path.isEmpty = true
  · have none : c.path = "" := String.isEmpty_iff.1 empty
    rw [if_pos empty]
    exact iff_of_false (by rintro ⟨⟩) fun valid => valid.2.1 none
  · have some : c.path ≠ "" := fun none => empty (String.isEmpty_iff.2 none)
    rw [if_neg empty]
    by_cases zero : c.watch.pollInterval = 0
    · rw [if_pos zero]
      exact iff_of_false (by rintro ⟨⟩) fun valid => valid.2.2.1 zero
    · rw [if_neg zero]
      cases c.facts with
      | error fault => exact iff_of_false (by rintro ⟨⟩) (by rintro ⟨-, -, -, facts, ⟨⟩⟩)
      | ok facts =>
        show Except.ok c = .ok c' ↔ _
        simp [some, zero, eq_comm]

theorem Config.valid_of_parse {text : String} {c : Config} (parsed : parse text = .ok c) :
    c.path ≠ "" ∧ c.watch.pollInterval ≠ 0 ∧ ∃ facts, c.facts = .ok facts := by
  unfold parse at parsed
  split at parsed
  · obtain ⟨rfl, valid⟩ := validate_eq_ok_iff.1 parsed
    exact valid
  · cases parsed

theorem Config.canonical_of_ofEntries? {entries : KeyMap Value} {c : Config}
    (whole : (Value.map entries).Canonical) (read : ofEntries? entries = some c) :
    c.context.Canonical := by
  obtain ⟨_, -, read⟩ := Option.bind_eq_some_iff.1 read
  obtain ⟨_, -, read⟩ := Option.bind_eq_some_iff.1 read
  obtain ⟨_, -, read⟩ := Option.bind_eq_some_iff.1 read
  cases read
  show ((entries.get? "context").getD .null).Canonical
  cases context : entries.get? "context" with
  | none => exact Value.canonical_null
  | some v => exact whole.get? context

/-- The facts of a configuration are in one form, as far as it has any. -/
theorem Config.canonical_facts {text : String} {c : Config} (parsed : parse text = .ok c)
    {facts : Facts} (given : c.facts = .ok facts) : (Value.map facts.known).Canonical := by
  refine Facts.canonical_of_ofValue? ?_ (Except.elim_eq_ok_iff.1 given)
  unfold parse at parsed
  split at parsed
  · rename_i found
    obtain ⟨rfl, -⟩ := validate_eq_ok_iff.1 parsed
    obtain ⟨v, read, found⟩ := Option.bind_eq_some_iff.1 found
    obtain ⟨entries, isMap, found⟩ := Option.bind_eq_some_iff.1 found
    cases v with
    | map entries =>
      cases isMap
      exact canonical_of_ofEntries? (Value.canonical_of_readToml? read) found
    | _ => cases isMap
  · cases parsed

/-- Whether a fault is that a document cannot be had from a file. -/
def Fault.isOfLoading : Fault → Bool
  | .load .. => true
  | .yaml => true
  | .json => true
  | fault => fault.isOfDocument

theorem Source.isOfLoading_of_load {source : Source} {files : FileStore} {fault : Fault}
    (failed : source.load files = .error fault) : fault.isOfLoading = true := by
  rcases Program.load_eq_error_iff.1 failed with
    ⟨cause, -, rfl⟩ | ⟨text, -, undecoded | ⟨v, -, invalid⟩⟩
  · rfl
  · rcases Format.decode_eq_error_iff.1 undecoded with ⟨-, -, rfl⟩ | ⟨-, -, rfl⟩
    · rfl
    · rfl
  · have offence := Document.isOfDocument_of_ofValue invalid
    cases fault with
    | layer index cause shown => rfl
    | whole cause => exact offence
    | _ => cases offence

theorem Roster.status_launch {r : Roster} {i : ResolverId} (known : i < r.states.length) :
    (r.launch i).status i = .watching := by
  simp [status, launch, known]

namespace Program

variable {p q : Program} {c : Config} {facts : Facts} {i : ResolverId}

/-! ## Answers -/

/-- Whatever is asked of a resolver is answered alike in two programs. -/
structure AnswersAlike (i : ResolverId) (p q : Program) : Prop where
  getSafe (path : List String) : (q.getSafe i path).2 = (p.getSafe i path).2
  get (path : List String) : (q.get i path).2 = (p.get i path).2
  getWith {α : Type} (path : List String) (read : Json → Except Mismatch α) :
    (q.getWith i path read).2 = (p.getWith i path read).2
  version : q.resolvers[i]?.map Resolver.version = p.resolvers[i]?.map Resolver.version
  source : q.source? i = p.source? i
  reload : (q.reload i).2 = (p.reload i).2

theorem SameUpTo.answersAlike {n : WatchId} (h : SameUpTo n p q) (i : ResolverId) :
    AnswersAlike i p q := by
  have found (path : List String) : (q.getSafe i path).2 = (p.getSafe i path).2 :=
    (h.getSafe i path).2
  have got (path : List String) : (q.get i path).2 = (p.get i path).2 := by
    rw [get_snd, get_snd, found]
  exact {
    getSafe := found
    get := got
    getWith := fun path read => by rw [getWith_snd, getWith_snd, got]
    version := matching.version h i
    source := h.source i
    reload := (matching.reloaded h i).2 }

/-! ## The watch -/

/-- A file that nobody watches can be watched exactly if there is a runtime for it and the system
can watch its directory. -/
theorem snd_watchFile {source : Source} (known : p.source? i = some source)
    (free : p.watchStatus i ≠ .watching) (hasRuntime : Bool) (watchable : String → Bool) :
    (p.watchFile i hasRuntime watchable).2 =
      if !hasRuntime then .error .noRuntime
      else if !watchable (FilePath.directory source.path) then .error .watcher
      else .ok p.watches.length := by
  have start := p.start_startWatch i (.ofSystem watchable) hasRuntime
  rw [watchFile]
  generalize p.startWatch i _ hasRuntime = result at start
  cases start with
  | noSource none => cases known.symm.trans none
  | noRuntime _ off =>
    subst off
    rfl
  | alreadyWatching _ _ watching => exact absurd watching free
  | refused same on _ unheard =>
    cases known.symm.trans same
    subst on
    simp only [subscribe, Notifier.ofSystem] at unheard
    split at unheard
    · cases unheard
    · rename_i refused
      cases unheard
      simp [refused]
  | started same on _ heard =>
    cases known.symm.trans same
    subst on
    simp only [subscribe, Notifier.ofSystem] at heard
    split at heard
    · rename_i granted
      cases heard
      simp [granted]
      rfl
    · cases heard

theorem watchStatus_watchFile {hasRuntime : Bool} {watchable : String → Bool} {w : WatchId}
    (begun : (p.watchFile i hasRuntime watchable).2 = .ok w) :
    (p.watchFile i hasRuntime watchable).1.watchStatus i = .watching := by
  have isOk : (p.watchFile i hasRuntime watchable).2.isOk = true := by rw [begun]; rfl
  have known : i < p.roster.states.length := by
    simpa [roster] using lt_length_of_startWatch_isOk isOk
  rw [watchStatus_eq_status, watchFile, roster_startWatch_of_ok isOk, Roster.status_launch known]

theorem quietFrom_length (p : Program) : p.QuietFrom p.watches.length where
  known := Nat.le_refl _
  quiet later found := by
    rw [List.getElem?_eq_none later] at found
    cases found

/-- What a configuration opens differs from what is opened from its file in one watch at most. -/
theorem sameUpTo_openConfig {q' : Program} {j : ResolverId} {hasRuntime : Bool}
    {watchable : String → Bool} (given : c.facts = .ok facts)
    (opened : p.openFile c.path c.format facts = (q, .ok i))
    (answered : p.openConfig c hasRuntime watchable = (q', .ok j)) :
    j = i ∧ SameUpTo p.watches.length q q' := by
  have quiet : q.QuietFrom p.watches.length := by
    have same := (p.quietFrom_length.refl.openFile c.path c.format facts).1
    rw [opened] at same
    exact same.left
  obtain ⟨-, -, idle⟩ := resolver_openFile opened
  -- The resolver is new, so none of the watches that were there before is its own.
  have other (w : WatchId) (_ : w < p.watches.length) :
      q.roster.states[i]? ≠ some (.watching w) := by
    intro held
    rw [watchStatus_eq_status, Roster.status_eq_idle, held] at idle
    cases idle
  rw [openConfig_of_ok given opened] at answered
  split at answered
  · obtain ⟨rfl, answer⟩ := Prod.mk.inj answered
    obtain ⟨w, -, rfl⟩ := Except.map_eq_ok_iff.1 answer
    exact ⟨rfl, quiet.later_startWatch other _ hasRuntime⟩
  · cases answered
    exact ⟨rfl, quiet.refl⟩

/-! ## Loading and watching -/

/-- What a configuration opens once its document can be loaded, compared with what is opened from
its file. Whether the system can watch a directory is not up to the program. -/
structure WatchesLoaded (p : Program) (c : Config) (facts : Facts) (hasRuntime : Bool)
    (watchable : String → Bool) : Prop where
  loaded : (p.openFile c.path (some c.formatInUse) facts).2 = .ok p.resolvers.length
  unwatched : c.watch.enabled = false →
    p.openConfig c hasRuntime watchable = p.openFile c.path (some c.formatInUse) facts
  watched : c.watch.enabled = true →
    let opened := (p.openFile c.path (some c.formatInUse) facts).1
    let started := opened.watchFile p.resolvers.length hasRuntime watchable
    p.openConfig c hasRuntime watchable = (started.1, started.2.map fun _ => p.resolvers.length) ∧
    started.2 =
      (if !hasRuntime then .error .noRuntime
      else if !watchable (FilePath.directory c.path) then .error .watcher
      else .ok opened.watches.length) ∧
    (started.2.isOk = false → started.1 = opened)
  status {i : ResolverId} : (p.openConfig c hasRuntime watchable).2 = .ok i →
    (p.openConfig c hasRuntime watchable).1.watchStatus i =
      if c.watch.enabled then .watching else .idle
  /-- Whatever is done later, as long as no watch takes an event that was not there before. -/
  alike {i : ResolverId} {later : List Action} :
    (p.openConfig c hasRuntime watchable).2 = .ok i →
    (∀ a ∈ later, a.LeavesEvents p.watches.length) → ∀ name,
    AnswersAlike i ((p.act (.openFile name c.path (some c.formatInUse) facts)).after later)
      ((p.act (.openConfig name c hasRuntime watchable)).after later)

theorem watchesLoaded (given : c.facts = .ok facts) {d : Document}
    (loaded : Source.load ⟨c.path, c.formatInUse⟩ p.files = .ok d) (hasRuntime : Bool)
    (watchable : String → Bool) : WatchesLoaded p c facts hasRuntime watchable := by
  obtain ⟨q, opened⟩ : ∃ q, p.openFile c.path c.format facts = (q, .ok p.resolvers.length) := by
    rcases p.openFile_eq c.path c.format facts with ⟨fault, failed, -⟩ | ⟨d', -, made⟩
    · cases loaded.symm.trans failed
    · exact ⟨_, made⟩
  -- The format in use is the one that opening takes from the path where none is given.
  have asked : p.openFile c.path (some c.formatInUse) facts = (q, .ok p.resolvers.length) := opened
  have answer := openConfig_of_ok given opened hasRuntime watchable
  obtain ⟨-, known, idle⟩ := resolver_openFile opened
  constructor
  case loaded => rw [asked]
  case unwatched =>
    intro off
    rw [answer, asked, off]
    rfl
  case watched =>
    intro on
    rw [answer, asked, if_pos on]
    exact ⟨rfl, snd_watchFile known (idle ▸ by decide) hasRuntime watchable, startWatch_of_error⟩
  case status =>
    intro i answered
    rw [answer] at answered ⊢
    split at answered
    · rename_i on
      obtain ⟨w, begun, rfl⟩ := Except.map_eq_ok_iff.1 answered
      rw [if_pos on, if_pos on]
      exact watchStatus_watchFile begun
    · rename_i off
      cases answered
      rw [if_neg off, if_neg off]
      exact idle
  case alike =>
    intro i later answered leaves name
    have result : p.openConfig c hasRuntime watchable =
        ((p.openConfig c hasRuntime watchable).1, .ok i) := Prod.ext rfl answered
    obtain ⟨rfl, same⟩ := sameUpTo_openConfig given opened result
    rw [act, act, asked, result]
    exact ((same.holdSettings name _).after leaves).answersAlike _

theorem excluded_of_isOfLoading {fault : Fault} (h : fault.isOfLoading = true) :
    fault ≠ .noSource ∧ fault ≠ .alreadyWatching ∧
      ∀ kind, fault ≠ .whole (.contextNotATable kind) := by
  refine ⟨?_, ?_, fun kind => ?_⟩ <;> (rintro rfl; cases h)

/-- Opening from a configuration that was accepted is loading its document and, if the configuration
says so, starting to watch it. What cannot be loaded is reported as such, and nothing is started.
What is loaded is watched exactly if there is a runtime and the system can watch the directory.
Without an event it makes no difference to answers that the file is watched. -/
theorem openConfig_loads_and_watches {text : String} {c : Config}
    (parsed : Config.parse text = .ok c) :
    c.path ≠ "" ∧ 0 < c.watch.pollInterval ∧ ∃ facts, c.facts = .ok facts ∧
    ∀ (p : Program) (hasRuntime : Bool) (watchable : String → Bool),
      (∀ fault, Source.load ⟨c.path, c.formatInUse⟩ p.files = .error fault →
        p.openConfig c hasRuntime watchable = (p, .error fault)) ∧
      (∀ d, Source.load ⟨c.path, c.formatInUse⟩ p.files = .ok d →
        WatchesLoaded p c facts hasRuntime watchable) ∧
      ∀ fault, (p.openConfig c hasRuntime watchable).2 = .error fault →
        fault ≠ .noSource ∧ fault ≠ .alreadyWatching ∧
          ∀ kind, fault ≠ .whole (.contextNotATable kind) := by
  obtain ⟨named, timed, facts, given⟩ := Config.valid_of_parse parsed
  refine ⟨named, UInt64.pos_iff_ne_zero.2 timed, facts, given, fun p hasRuntime watchable => ?_⟩
  have unloaded (fault : Fault)
      (failed : Source.load ⟨c.path, c.formatInUse⟩ p.files = .error fault) :
      p.openConfig c hasRuntime watchable = (p, .error fault) := by
    rcases p.openFile_eq c.path c.format facts with ⟨fault', failed', refused⟩ | ⟨d, loaded, -⟩
    · cases failed.symm.trans failed'
      exact openConfig_of_error given refused hasRuntime watchable
    · cases failed.symm.trans loaded
  refine ⟨unloaded, fun d loaded => watchesLoaded given loaded hasRuntime watchable,
    fun fault answered => ?_⟩
  cases read : Source.load ⟨c.path, c.formatInUse⟩ p.files with
  | error cause =>
    rw [unloaded cause read] at answered
    cases answered
    exact excluded_of_isOfLoading (Source.isOfLoading_of_load read)
  | ok d =>
    have loads := watchesLoaded given read hasRuntime watchable
    cases switch : c.watch.enabled with
    | false =>
      rw [loads.unwatched switch, loads.loaded] at answered
      cases answered
    | true =>
      obtain ⟨answer, outcome, -⟩ := loads.watched switch
      rw [answer, outcome] at answered
      split at answered
      · cases answered
        simp
      · split at answered <;> cases answered
        simp

/-- A configuration that is watched from the start, and files in which its document can be read. -/
def watchedConfig : String := "path = \"s.json\"\n[watch]\nenabled = true"

def configured : Program := ofRun [.writeFile "s.json"
  (some "[\x7b\"name\":\"a\",\"settings\":\x7b\"k\":1\x7d\x7d,\x7b\"end\":true\x7d]")]

/-- The file is written again, of which the watch hears, and reloaded before the watch does so. -/
def reloadedBeforeEvent : List Action :=
  [.writeFile "s.json" (some "[\x7b\"version\":2,\"end\":true\x7d]"), .reload (.named "s")]

/-- Where the system can watch everything the configuration opens, and where it can watch nothing
the document is loaded, but nothing comes of it. -/
theorem openConfig_loads_and_watches_reloaded :
    ∃ c facts, Config.parse watchedConfig = .ok c ∧ c.facts = .ok facts ∧
      (configured.openConfig c true fun _ => true).1.watchStatus 0 = .watching ∧
      AnswersAlike 0
        ((configured.act (.openFile "s" "s.json" (some .json) facts)).after reloadedBeforeEvent)
        ((configured.act (.openConfig "s" c true fun _ => true)).after reloadedBeforeEvent) ∧
      configured.openConfig c true (fun _ => false) =
        ((configured.openFile "s.json" (some .json) facts).1, .error .watcher) := by
  have read : (Config.parse watchedConfig).toOption.map
      (fun c => (c.path, c.formatInUse, c.watch.enabled,
        (configured.openConfig c true fun _ => true).2.toOption)) =
      some ("s.json", .json, true, some 0) := by decide +kernel
  have loads : (Source.load ⟨"s.json", .json⟩ configured.files).isOk = true := by decide +kernel
  cases parsed : Config.parse watchedConfig with
  | error fault => simp [parsed, Except.toOption] at read
  | ok c =>
    obtain ⟨-, -, facts, given, opens⟩ := openConfig_loads_and_watches parsed
    obtain ⟨-, loaded, -⟩ := opens configured true fun _ => true
    obtain ⟨-, unheard, -⟩ := opens configured true fun _ => false
    simp only [parsed, Except.toOption, Option.map_some, Option.some_inj, Prod.mk.injEq] at read
    obtain ⟨path, format, switch, answer⟩ := read
    rw [path, format] at loaded unheard
    cases document : Source.load ⟨"s.json", .json⟩ configured.files with
    | error fault => simp [document, Except.isOk, Except.toBool] at loads
    | ok d =>
      have watches := loaded d document
      have answered : (configured.openConfig c true fun _ => true).2 = .ok 0 := by
        cases result : (configured.openConfig c true fun _ => true).2 with
        | error fault => simp [result] at answer
        | ok i => simpa [result] using answer
      have leaves : ∀ a ∈ reloadedBeforeEvent, a.LeavesEvents configured.watches.length := by
        rintro a member w rfl
        simp [reloadedBeforeEvent] at member
      refine ⟨c, facts, rfl, given, ?watching, ?alike, ?refused⟩
      case watching => rw [watches.status answered, if_pos switch]
      case alike =>
        have alike := watches.alike answered leaves "s"
        rwa [path, format] at alike
      case refused =>
        obtain ⟨answer, outcome, nothing⟩ := (unheard d document).watched switch
        rw [path, format] at answer outcome nothing
        have refused := nothing (by rw [outcome]; rfl)
        rw [answer, refused, outcome]
        rfl

end Program
end LayeredSettings
