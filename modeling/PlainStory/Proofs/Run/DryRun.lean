import PlainStory.Proofs.Run.Nesting
import PlainStory.Proofs.Run.Parallel
import PlainStory.Proofs.Step.Idle

/-!
# Dry runs

A dry run calls nothing, so every step that is found succeeds and every argument is as good as any.
That is what happens in a run with idle handlers (`Runner.idle`), apart from the calls themselves:
`Play.Rehearses` says it of a part of a dry run and the same part with idle handlers. The main
statement is that it holds of whole runs.
-/

namespace PlainStory

variable {W : Type}

/-- What a journal tells apart from calls of handlers. -/
def uncalled (journal : List (Entry W)) : List (Entry W) := journal.filter (!·.isCall)

@[simp] theorem uncalled_append (i j : List (Entry W)) :
    uncalled (i ++ j) = uncalled i ++ uncalled j := List.filter_append ..

theorem uncalled_of_isCall {j : List (Entry W)} (h : ∀ x ∈ j, x.isCall = true) :
    uncalled j = [] :=
  List.filter_eq_nil_iff.2 fun x hx => by simp [h x hx]

@[simp] theorem uncalled_outcome (o : Option StepOutcome) :
    uncalled (o.toList.map fun o => (.reported (.outcome o) : Entry W)) =
      o.toList.map fun o => .reported (.outcome o) := by
  cases o <;> rfl

theorem callsOf_uncalled (j : List (Entry W)) : callsOf (uncalled j) = [] := by
  rw [callsOf, uncalled, List.filter_filter]
  simp

theorem eventsOf_uncalled (j : List (Entry W)) : eventsOf (uncalled j) = eventsOf j := by
  induction j with
  | nil => rfl
  | cons x j ih =>
    cases x with
    | reported e => exact congrArg (e :: ·) ih
    | hookCalled h => exact ih
    | stepCalled c context => exact ih
    | requested path => exact ih
    | consulted s e => exact ih

/-- A trace that leaves the world `w` as it was and tells of no failure, and that is otherwise another
trace without its calls. -/
structure Trace.Rehearses (w : W) (t u : Trace W) : Prop where
  world : t.progress.world = w
  notFailed : ∀ step e, .outcome (.failed step e) ∉ t.events
  journal : t.journal = uncalled u.journal
  progress : t.progress = u.progress
  fatal : t.fatal = u.fatal

/-- From everywhere, the first part does no harm and tells what the second one tells, but for the
calls. -/
def Play.Rehearses (a b : Play W) : Prop := ∀ p, (a p).Rehearses p.world (b p)

/-! ### Parts -/

theorem Trace.Rehearses.append {w : W} {t t' u u' : Trace W} (h : t.Rehearses w u)
    (h' : t'.Rehearses w u') {f g : Option RunError} (hf : f = g) :
    (⟨t.journal ++ t'.journal, t'.progress, f⟩ : Trace W).Rehearses w
      ⟨u.journal ++ u'.journal, u'.progress, g⟩ where
  world := h'.world
  notFailed step e := by
    rw [Trace.events_eq, eventsOf_append, List.mem_append, not_or]
    exact ⟨h.notFailed step e, h'.notFailed step e⟩
  journal := by rw [h.journal, h'.journal, uncalled_append]
  progress := h'.progress
  fatal := hf

namespace Play

variable {a a' b b' : Play W}

theorem rehearses_skip : (skip : Play W).Rehearses skip := fun _ => ⟨rfl, nofun, rfl, rfl, rfl⟩

theorem rehearses_request (path : Text) : (request path : Play W).Rehearses (request path) :=
  fun _ => ⟨rfl, nofun, rfl, rfl, rfl⟩

theorem rehearses_fail (e : RunError) : (fail e : Play W).Rehearses (fail e) :=
  fun _ => ⟨rfl, nofun, rfl, rfl, rfl⟩

theorem rehearses_report {e : Event} (he : e.outcome? = none) :
    (report e : Play W).Rehearses (report e) := by
  refine fun _ => ⟨rfl, ?_, rfl, rfl, rfl⟩
  intro step error h
  rw [← List.mem_singleton.1 h] at he
  cases he

/-- The second part begins where the first one left off, in the same world and the same state. -/
theorem Rehearses.next (ha : a.Rehearses a') (hb : b.Rehearses b') (p : Progress W) :
    (b (a p).progress).Rehearses p.world (b' (a' p).progress) := by
  have h := hb (a p).progress
  rw [(ha p).world] at h
  rw [← (ha p).progress]
  exact h

theorem Rehearses.andThen (ha : a.Rehearses a') (hb : b.Rehearses b') :
    (a.andThen b).Rehearses (a'.andThen b') := by
  intro p
  cases hf : (a p).fatal with
  | some e =>
    rw [andThen_of_some hf, andThen_of_some ((ha p).fatal.symm.trans hf)]
    exact ha p
  | none =>
    have hrest := ha.next hb p
    rw [andThen_of_none hf, andThen_of_none ((ha p).fatal.symm.trans hf)]
    exact (ha p).append hrest hrest.fatal

theorem Rehearses.ensuring (ha : a.Rehearses a') (hb : b.Rehearses b') :
    (a.ensuring b).Rehearses (a'.ensuring b') := by
  intro p
  have hrest := ha.next hb p
  exact (ha p).append hrest (congrArg₂ Option.or (ha p).fatal hrest.fatal)

end Play

/-! ### Turns -/

/-- The settings of a run that is not dry and has none but the built-in converters. -/
def Settings.idle (s : Settings) (separator : Text) : Settings :=
  { s with converters := { separator := separator }, dryRun := false }

namespace Item

variable {s : Settings}

/-- The item with an idle handler. -/
def idle : Item W → Item W
  | hook h => hook h.idle
  | matched step m => matched step m.idle
  | pending step => pending step
  | comment step => comment step

theorem ofStep_idle (keywords : Keywords) (registries : List (Registry W)) (row : Option Row)
    (raw : Text) :
    ofStep keywords (registries.map Registry.idle) row raw =
      (ofStep keywords registries row raw).idle := by
  unfold ofStep
  dsimp only
  rw [Registry.findAcross?_idle]
  generalize (row.elim raw fun r => r.substitute raw : Text) = step
  split
  · rfl
  · cases Registry.findAcross? registries step <;> rfl

/-- In a dry run an item has the outcome that it has with an idle handler, and nothing is called. -/
theorem perform_of_dryRun (hdry : s.dryRun = true) (separator : Text) (row : Option Row)
    (i : Item W) (w : W) :
    i.perform s row w = ([], (i.idle.perform (s.idle separator) row w).2) := by
  cases i with
  | hook h =>
    rw [perform, if_pos hdry]
    rfl
  | matched step m =>
    obtain ⟨context, hcontext⟩ :=
      m.candidate.exists_context?_idle separator step m.values row
    have hidle : m.idle.candidate.context? (s.idle separator).converters step m.idle.values row =
        .ok context := hcontext
    rw [perform, if_pos hdry, idle, perform, if_neg (by simp [Settings.idle]), hidle]
    rfl
  | pending step => rfl
  | comment step => rfl

/-- No item of a dry run fails, and none of them touches the world. -/
theorem harmless_perform_of_dryRun (hdry : s.dryRun = true) (row : Option Row) (i : Item W) (w : W) :
    (i.perform s row w).2.2 = w ∧ ∀ step e, (i.perform s row w).2.1 ≠ some (.failed step e) := by
  cases i <;> simp [perform, hdry]

theorem result_of_dryRun (hdry : s.dryRun = true) (separator : Text) (row : Option Row) (i : Item W)
    (p : Progress W) :
    i.result s row p = ([], (i.idle.result (s.idle separator) row p).2) := by
  have hadmits : ∀ fine, i.idle.admits fine = i.admits fine := by cases i <;> exact fun _ => rfl
  have hcarried : ∀ fine, i.idle.isCarriedOut fine = i.isCarriedOut fine := by
    cases i <;> exact fun _ => rfl
  have hskipped : i.idle.outcomeSkipped = i.outcomeSkipped := by cases i <;> rfl
  unfold result
  rw [hadmits, hcarried, hskipped]
  split
  · split
    · exact perform_of_dryRun hdry separator row i p.world
    · rfl
  · rfl

theorem harmless_result_of_dryRun (hdry : s.dryRun = true) (row : Option Row) (i : Item W)
    (p : Progress W) :
    (i.result s row p).2.2 = p.world ∧
      ∀ step e, (i.result s row p).2.1 ≠ some (.failed step e) := by
  unfold result
  split
  · split
    · exact harmless_perform_of_dryRun hdry row i p.world
    · refine ⟨rfl, ?_⟩
      cases i <;> simp [outcomeSkipped]
  · simp

theorem rehearses_turn (hdry : s.dryRun = true) (separator : Text) (row : Option Row)
    (i : Item W) : (i.turn s row).Rehearses (i.idle.turn (s.idle separator) row) := by
  intro p
  obtain ⟨hworld, hfailed⟩ := harmless_result_of_dryRun hdry row i p
  have hresult := result_of_dryRun hdry separator row i p
  have hcalls : uncalled (i.idle.result (s.idle separator) row p).1 = [] :=
    uncalled_of_isCall (isCall_of_mem_result _ row i.idle p)
  refine ⟨?_, ?_, ?_, ?_, ?_⟩
  · rw [turn_eq]
    exact hworld
  · intro step e h
    rw [events_turn, List.mem_map] at h
    obtain ⟨o, ho, heq⟩ := h
    obtain rfl := Event.outcome.inj heq
    exact hfailed step e (Option.mem_toList.1 ho)
  · rw [turn_eq, turn_eq, uncalled_append, hcalls, uncalled_outcome, hresult]
  · rw [turn_eq, turn_eq, hresult]
  · rw [turn_eq, turn_eq]

theorem rehearses_turns (hdry : s.dryRun = true) (separator : Text) (row : Option Row)
    (items : List (Item W)) :
    (turns s row items).Rehearses (turns (s.idle separator) row (items.map idle)) := by
  induction items with
  | nil => exact Play.rehearses_skip
  | cons i items ih =>
    unfold turns at ih ⊢
    simp only [List.map_cons, Play.inOrder_cons]
    exact (rehearses_turn hdry separator row i).andThen ih

theorem rehearses_sequence (hdry : s.dryRun = true) (separator : Text) (row : Option Row)
    (items : List (Item W)) :
    (sequence s row items).Rehearses (sequence (s.idle separator) row (items.map idle)) :=
  fun p => rehearses_turns hdry separator row items { p with state := p.state.startSequence }

end Item

/-! ### Runs -/

namespace Runner

variable (r : Runner W) (separator : Text)

/-- The runner with idle handlers that has none but the built-in converters and runs nothing dry. -/
def idle : Runner W where
  settings := r.settings.idle separator
  registries := r.registries.map Registry.idle

/-- The items of hooks, where the hooks of an idle registry are idle. -/
theorem hookItems_idle {hooks : Registry W → List (Hook W)}
    (hhooks : ∀ registry : Registry W, hooks registry.idle = (hooks registry).map Hook.idle)
    (registries : List (Registry W)) :
    ((registries.map Registry.idle).flatMap hooks).map Item.hook =
      ((registries.flatMap hooks).map Item.hook).map Item.idle := by
  rw [List.flatMap_map, List.map_map, List.map_flatMap, List.map_flatMap]
  congr 1
  funext registry
  rw [hhooks, List.map_map]
  rfl

theorem passItems_idle (steps : List Text) (row : Option Row) :
    (r.idle separator).passItems steps row = (r.passItems steps row).map Item.idle := by
  have hsteps : steps.map (Item.ofStep (r.idle separator).settings.keywords
      (r.idle separator).registries row) =
        (steps.map (Item.ofStep r.settings.keywords r.registries row)).map Item.idle := by
    rw [List.map_map]
    exact List.map_congr_left fun raw _ => Item.ofStep_idle _ _ _ raw
  unfold passItems
  rw [hsteps, idle, ← List.map_reverse, hookItems_idle fun registry => registry.hooksAt_idle _,
    hookItems_idle fun registry => registry.hooksAfterScenario_idle, List.map_append,
    List.map_append]

theorem rehearses_conclude : r.conclude.Rehearses (r.idle separator).conclude :=
  fun _ => ⟨rfl, nofun, rfl, rfl, rfl⟩

variable {r} (hdry : r.settings.dryRun = true)
include hdry

theorem congruence_rehearses : r.Congruence (r.idle separator) Play.Rehearses where
  skip := Play.rehearses_skip
  andThen := fun ha hb => ha.andThen hb
  ensuring := fun ha hb => ha.ensuring hb
  report := fun _ he => Play.rehearses_report he
  request := Play.rehearses_request
  fail := Play.rehearses_fail
  pass := by
    intro steps row
    have h := Item.rehearses_sequence hdry separator row (r.passItems steps row)
    rw [← passItems_idle r separator] at h
    exact h
  storyHooks := by
    intro place
    have h := Item.rehearses_sequence hdry separator none
      ((r.registries.flatMap (·.hooksAt place)).map .hook)
    rw [← hookItems_idle fun registry => registry.hooksAt_idle place] at h
    exact h

theorem rehearses_run (s : Story) : (r.run s).Rehearses ((r.idle separator).run s) := by
  intro p
  have hstory : (r.story (r.givenStory [s.path]) s false).Rehearses
      ((r.idle separator).story ((r.idle separator).givenStory [s.path]) s false) :=
    (congruence_rehearses separator hdry).story
      ((congruence_rehearses separator hdry).givenStory rfl rfl [s.path]) s false
  exact hstory.andThen (r.rehearses_conclude separator) { p with state := .initial }

theorem rehearses_runPath (path : Text) :
    (r.runPath path).Rehearses ((r.idle separator).runPath path) := by
  have hlibrary : (r.idle separator).settings.library = r.settings.library := rfl
  rw [runPath, runPath, hlibrary]
  cases r.settings.library.load path with
  | ok text => exact rehearses_run separator hdry (r.read path text)
  | error e => exact Play.rehearses_fail _

/-- A dry run calls nothing, leaves the world as it was, and no step and no hook fails in it. It tells
what a run tells in which every handler succeeds without doing anything and every argument converts,
apart from the calls: the same events, the same given stories asked for and the same strategy
consulted. It leaves the same outstanding error and ends with the same result. By
`Registry.build?_idle` the registries of that run are those of the idle definitions. -/
theorem dryRun_run (s : Story) (p : Progress W) :
    let t := r.run s p
    let u := (r.idle separator).run s p
    t.progress.world = p.world ∧ (∀ step e, .outcome (.failed step e) ∉ t.events) ∧
      callsOf t.journal = [] ∧ t.journal = uncalled u.journal ∧ t.events = u.events ∧
        t.progress = u.progress ∧ t.fatal = u.fatal := by
  intro t u
  have h : t.Rehearses p.world u := rehearses_run separator hdry s p
  have hcalls : callsOf t.journal = [] := by rw [h.journal, callsOf_uncalled]
  have hevents : t.events = u.events := by
    rw [Trace.events_eq, h.journal, eventsOf_uncalled, Trace.events_eq]
  exact ⟨h.world, h.notFailed, hcalls, h.journal, hevents, h.progress, h.fatal⟩

omit hdry

/-- A dry run of a story that gives another one. Its step would not get an argument for its handler,
which would fail, as would the hook before it; the other step is pending, and the last given story is
missing. -/
theorem dryRun_run_of_missing_given_story :
    ∃ (r : Runner (List Nat)) (s : Story), r.settings.dryRun = true ∧
      let t := r.run s ⟨[], .initial⟩
      let u := (r.idle defaultSeparator).run s ⟨[], .initial⟩
      t.fatal = some (.load (.notFound "h")) ∧
        t.progress.state.outstanding = some (.pending "When b") ∧
        .outcome (.successful "Given a x") ∈ t.events ∧ (callsOf u.journal).length = 3 ∧
        t.progress.world = [] ∧ (∀ step e, .outcome (.failed step e) ∉ t.events) ∧
        callsOf t.journal = [] ∧ t.journal = uncalled u.journal ∧ t.events = u.events ∧
          t.progress = u.progress ∧ t.fatal = u.fatal := by
  let registry : Registry (List Nat) :=
    { keywords := .english
      candidates := [⟨.precondition, ⟨"a $n", '$', [.char 'a', .blank, .slot "n"]⟩, 0, [.integer], 0,
        fun w _ => (.error "no", 1 :: w)⟩]
      hooks := [⟨.beforeScenario, fun w => (.panic none, 2 :: w)⟩,
        ⟨.afterScenario .failure, fun w => (.ok, 3 :: w)⟩] }
  let library : Library := .ofPairs [("g", "Scenario: y\nGiven a x\nWhen b\nGiven a 1")]
  let r : Runner (List Nat) :=
    { settings := { library := library, dryRun := true }, registries := [registry] }
  let s : Story := r.read "top" "Scenario: z\nGivenStories: g, h\nGiven a x"
  have hrun : r.run s = r.runUpTo (fun _ _ => .skip) 2 s := (r.runUpTo_eq _ s).symm
  have hidle : (r.idle defaultSeparator).run s =
      (r.idle defaultSeparator).runUpTo (fun _ _ => .skip) 2 s := (runUpTo_eq _ _ s).symm
  have hfatal : (r.run s ⟨[], .initial⟩).fatal = some (.load (.notFound "h")) := by
    rw [hrun]
    decide +kernel
  have houtstanding : (r.run s ⟨[], .initial⟩).progress.state.outstanding =
      some (.pending "When b") := by
    rw [hrun]
    decide +kernel
  have hsuccessful : .outcome (.successful "Given a x") ∈ (r.run s ⟨[], .initial⟩).events := by
    rw [hrun]
    decide +kernel
  have hcalled :
      (callsOf ((r.idle defaultSeparator).run s ⟨[], .initial⟩).journal).length = 3 := by
    rw [hidle]
    decide +kernel
  exact ⟨r, s, rfl, hfatal, houtstanding, hsuccessful, hcalled,
    dryRun_run (r := r) defaultSeparator rfl s ⟨[], .initial⟩⟩

end Runner

end PlainStory
