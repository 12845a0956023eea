import PlainStory.Proofs.Run.Composition

/-!
# The stream of events

The events of a run mirror its story. `Runner.StoryStream` is the grammar of these streams: what a
story, its scenarios, their given stories and their passes report, also where a given story ends them
early. `WellNested` reads a stream with a stack of the parts that are open. The main statement is that
every run, however it ends, reports a well-nested stream of its story.
-/

namespace PlainStory

variable {W : Type}

/-! ### Nesting -/

/-- What has an event at its beginning and one at its end. -/
inductive Bracket where
  | story (embedded : Bool)
  | scenario
  | examples
deriving DecidableEq

/-- The brackets that are open after an event, the innermost first, if the event can stand there. -/
def Event.nest : List Bracket → Event → Option (List Bracket)
  | [], beforeStory _ false => some [.story false]
  | .scenario :: bs, beforeStory _ true => some (.story true :: .scenario :: bs)
  | .story embedded :: bs, afterStory closed => if closed = embedded then some bs else none
  | .story embedded :: bs, beforeScenario _ => some (.scenario :: .story embedded :: bs)
  | .scenario :: bs, afterScenario => some bs
  | .scenario :: bs, givenStories _ => some (.scenario :: bs)
  | .scenario :: bs, beforeExamples _ _ => some (.examples :: .scenario :: bs)
  | .examples :: bs, exampleRow _ => some (.examples :: bs)
  | .examples :: bs, afterExamples => some bs
  | b :: bs, outcome _ => some (b :: bs)
  | _, _ => none

/-- Every bracket that is opened is closed again, the inner ones first, and each event stands within
the brackets it belongs to. -/
def WellNested (es : List Event) : Prop := es.foldlM Event.nest [] = some []

instance (es : List Event) : Decidable (WellNested es) :=
  inferInstanceAs (Decidable (es.foldlM Event.nest [] = some []))

/-! ### The grammar of streams -/

/-- The outcomes of hooks: a hook shows only if it failed. -/
inductive HookOutcomes : List (Hook W) → List Event → Prop where
  | nil : HookOutcomes [] []
  | silent {h hooks es} (rest : HookOutcomes hooks es) : HookOutcomes (h :: hooks) es
  | failed {h hooks es} (f : Failure) (rest : HookOutcomes hooks es) :
    HookOutcomes (h :: hooks) (.outcome (.failed h.label (.failed f)) :: es)

/-- The outcomes of steps: one for each, with its text. -/
inductive StepOutcomes : List Text → List Event → Prop where
  | nil : StepOutcomes [] []
  | cons {steps es} (o : StepOutcome) (rest : StepOutcomes steps es) :
    StepOutcomes (o.step :: steps) (.outcome o :: es)

namespace Runner

variable (r : Runner W)

/-- The text of a step once the row is substituted. -/
def stepText (row : Option Row) (raw : Text) : Text := row.elim raw fun x => x.substitute raw

/-- One pass: the hooks before it, its steps and the hooks after it. -/
inductive PassStream (steps : List Text) (row : Option Row) : List Event → Prop where
  | pass {before performed after}
    (hbefore : HookOutcomes (r.registries.reverse.flatMap (·.hooksAt .beforeScenario)) before)
    (hsteps : StepOutcomes (steps.map (stepText row)) performed)
    (hafter : HookOutcomes (r.registries.flatMap (·.hooksAfterScenario)) after) :
    PassStream steps row (before ++ performed ++ after)

/-- The passes for the rows of a table. -/
inductive RowsStream (steps : List Text) : List Row → List Event → Prop where
  | nil : RowsStream steps [] []
  | cons {row rows es fs} (pass : r.PassStream steps (some row) es)
    (rest : RowsStream steps rows fs) :
    RowsStream steps (row :: rows) (.exampleRow row :: es ++ fs)

/-- All passes of a scenario. -/
inductive PassesStream (s : Scenario) : List Event → Prop where
  | once {es} (hrows : s.examples.rows = []) (pass : r.PassStream s.steps none es) :
    PassesStream s es
  | rows {es} (hrows : s.examples.rows ≠ []) (rows : r.RowsStream s.steps s.examples.rows es) :
    PassesStream s (.beforeExamples s.steps s.examples :: es ++ [.afterExamples])

/-- The event that announces given stories, where there are any. -/
def announcement (paths : List Text) : List Event :=
  if paths = [] then [] else [.givenStories paths]

/- The streams while the stories with the paths `opened` are open. The error is the one of the given
story that ended the part early; there is none where the part is complete. -/
mutual

inductive StoryStream : List Text → Story → Bool → Option RunError → List Event → Prop where
  | story {opened s embedded aborted before es after}
    (hbefore : HookOutcomes (r.registries.flatMap (·.hooksAt (.beforeStory embedded))) before)
    (hscenarios : ScenariosStream opened s.scenarios aborted es)
    (hafter : HookOutcomes (r.registries.flatMap (·.hooksAt (.afterStory embedded))) after) :
    StoryStream opened s embedded aborted
      (.beforeStory s embedded :: before ++ es ++ after ++ [.afterStory embedded])

inductive ScenariosStream : List Text → List Scenario → Option RunError → List Event → Prop where
  | nil {opened} : ScenariosStream opened [] none []
  | cons {opened s ss aborted es fs} (first : ScenarioStream opened s none es)
    (rest : ScenariosStream opened ss aborted fs) :
    ScenariosStream opened (s :: ss) aborted (es ++ fs)
  | aborted {opened s ss e es} (first : ScenarioStream opened s (some e) es) :
    ScenariosStream opened (s :: ss) (some e) es

inductive ScenarioStream : List Text → Scenario → Option RunError → List Event → Prop where
  | completed {opened s es fs} (given : GivenStoriesStream opened s.givenStories none es)
    (passes : r.PassesStream s fs) :
    ScenarioStream opened s none
      (.beforeScenario s.title :: announcement s.givenStories ++ es ++ fs ++ [.afterScenario])
  | aborted {opened s e es} (given : GivenStoriesStream opened s.givenStories (some e) es) :
    ScenarioStream opened s (some e)
      (.beforeScenario s.title :: announcement s.givenStories ++ es ++ [.afterScenario])

inductive GivenStoriesStream : List Text → List Text → Option RunError → List Event → Prop where
  | nil {opened} : GivenStoriesStream opened [] none []
  | cons {opened path paths aborted es fs} (first : GivenStoryStream opened path none es)
    (rest : GivenStoriesStream opened paths aborted fs) :
    GivenStoriesStream opened (path :: paths) aborted (es ++ fs)
  | aborted {opened path paths e es} (first : GivenStoryStream opened path (some e) es) :
    GivenStoriesStream opened (path :: paths) (some e) es

inductive GivenStoryStream : List Text → Text → Option RunError → List Event → Prop where
  | recursive {opened path} (ho : path ∈ opened) :
    GivenStoryStream opened path (some (.recursive path)) []
  | missing {opened path} (ho : path ∉ opened) (hl : r.settings.library.get? path = none) :
    GivenStoryStream opened path (some (.load (.notFound path))) []
  | found {opened path text aborted es} (ho : path ∉ opened)
    (hl : r.settings.library.get? path = some text)
    (story : StoryStream (path :: opened) (r.read path text) true aborted es) :
    GivenStoryStream opened path aborted es

end

end Runner

/-! ### Streams are well nested -/

theorem foldlM_nest_hookOutcomes {hooks : List (Hook W)} {es : List Event}
    (h : HookOutcomes hooks es) (b : Bracket) (bs : List Bracket) :
    es.foldlM Event.nest (b :: bs) = some (b :: bs) := by
  induction h with
  | nil => rfl
  | silent _ ih => exact ih
  | failed f _ ih => simpa [Event.nest] using ih

theorem foldlM_nest_stepOutcomes {steps : List Text} {es : List Event} (h : StepOutcomes steps es)
    (b : Bracket) (bs : List Bracket) : es.foldlM Event.nest (b :: bs) = some (b :: bs) := by
  induction h with
  | nil => rfl
  | cons o _ ih => simpa [Event.nest] using ih

namespace Runner

variable {r : Runner W}

theorem PassStream.nest {steps : List Text} {row : Option Row} {es : List Event}
    (h : r.PassStream steps row es) (b : Bracket) (bs : List Bracket) :
    es.foldlM Event.nest (b :: bs) = some (b :: bs) := by
  obtain ⟨hbefore, hsteps, hafter⟩ := h
  simp [foldlM_nest_hookOutcomes hbefore, foldlM_nest_stepOutcomes hsteps,
    foldlM_nest_hookOutcomes hafter]

theorem RowsStream.nest {steps : List Text} {rows : List Row} {es : List Event}
    (h : r.RowsStream steps rows es) (bs : List Bracket) :
    es.foldlM Event.nest (.examples :: bs) = some (.examples :: bs) := by
  induction h with
  | nil => rfl
  | cons pass _ ih => simp [Event.nest, pass.nest, ih]

theorem PassesStream.nest {s : Scenario} {es : List Event} (h : r.PassesStream s es)
    (bs : List Bracket) :
    es.foldlM Event.nest (.scenario :: bs) = some (.scenario :: bs) := by
  cases h with
  | once _ pass => exact pass.nest _ _
  | rows _ rows => simp [Event.nest, rows.nest]

theorem foldlM_nest_announcement (paths : List Text) (bs : List Bracket) :
    (announcement paths).foldlM Event.nest (.scenario :: bs) = some (.scenario :: bs) := by
  unfold announcement
  split <;> rfl

mutual

theorem StoryStream.nest_of_start {opened : List Text} {s : Story} {embedded : Bool}
    {aborted : Option RunError} {es : List Event} (h : r.StoryStream opened s embedded aborted es)
    {bs : List Bracket}
    (hbs : Event.nest bs (.beforeStory s embedded) = some (.story embedded :: bs)) :
    es.foldlM Event.nest bs = some bs := by
  match h with
  | .story hbefore hscenarios hafter =>
    have hclose : Event.nest (.story embedded :: bs) (.afterStory embedded) = some bs := if_pos rfl
    simp only [List.cons_append, List.foldlM_cons, List.foldlM_append, List.foldlM_nil, hbs,
      foldlM_nest_hookOutcomes hbefore, hscenarios.nest, foldlM_nest_hookOutcomes hafter, hclose,
      Option.bind_eq_bind, Option.bind_some, Option.pure_def]

theorem ScenariosStream.nest {opened : List Text} {ss : List Scenario} {aborted : Option RunError}
    {es : List Event} (h : r.ScenariosStream opened ss aborted es) (embedded : Bool)
    (bs : List Bracket) :
    es.foldlM Event.nest (.story embedded :: bs) = some (.story embedded :: bs) := by
  match h with
  | .nil => rfl
  | .cons first rest => simp [first.nest, rest.nest]
  | .aborted first => exact first.nest _ _

theorem ScenarioStream.nest {opened : List Text} {s : Scenario} {aborted : Option RunError}
    {es : List Event} (h : r.ScenarioStream opened s aborted es) (embedded : Bool)
    (bs : List Bracket) :
    es.foldlM Event.nest (.story embedded :: bs) = some (.story embedded :: bs) := by
  match h with
  | .completed given passes =>
    simp [Event.nest, foldlM_nest_announcement, given.nest, passes.nest]
  | .aborted given => simp [Event.nest, foldlM_nest_announcement, given.nest]

theorem GivenStoriesStream.nest {opened paths : List Text} {aborted : Option RunError}
    {es : List Event} (h : r.GivenStoriesStream opened paths aborted es) (bs : List Bracket) :
    es.foldlM Event.nest (.scenario :: bs) = some (.scenario :: bs) := by
  match h with
  | .nil => rfl
  | .cons first rest => simp [first.nest, rest.nest]
  | .aborted first => exact first.nest _

theorem GivenStoryStream.nest {opened : List Text} {path : Text} {aborted : Option RunError}
    {es : List Event} (h : r.GivenStoryStream opened path aborted es) (bs : List Bracket) :
    es.foldlM Event.nest (.scenario :: bs) = some (.scenario :: bs) := by
  match h with
  | .recursive _ => rfl
  | .missing _ _ => rfl
  | .found _ _ story => exact story.nest_of_start rfl

end

theorem StoryStream.wellNested {opened : List Text} {s : Story} {aborted : Option RunError}
    {es : List Event} (h : r.StoryStream opened s false aborted es) : WellNested es :=
  h.nest_of_start rfl

end Runner

/-! ### What the parts of a run report -/

theorem Item.says_turns_hooks (s : Settings) (row : Option Row) (hooks : List (Hook W)) :
    (Play.inOrder ((hooks.map .hook).map (turn s row))).Says fun f j =>
      f = none ∧ HookOutcomes hooks (eventsOf j) := by
  induction hooks with
  | nil => exact Play.says_skip ⟨rfl, .nil⟩
  | cons h hooks ih =>
    rw [List.map_cons, List.map_cons, Play.inOrder_cons]
    refine says_turn_andThen _ fun calls o ho hcalls => ih.mono ?_
    rintro f j ⟨hf, hj⟩
    refine ⟨hf, ?_⟩
    rw [eventsOf_append, eventsOf_append, eventsOf_eq_nil_of_isCall hcalls, eventsOf_outcome]
    cases ho with
    | silent => exact .silent hj
    | hookFailed _ e => exact .failed e hj

/-- A step is a comment, or no candidate matches it, or one of them is chosen. -/
theorem Item.ofStep_cases (k : Keywords) (registries : List (Registry W)) (row : Option Row)
    (raw : Text) :
    (k.isComment (Runner.stepText row raw) = true ∧
      Item.ofStep k registries row raw = .comment (Runner.stepText row raw)) ∨
    (k.isComment (Runner.stepText row raw) = false ∧
      Registry.findAcross? registries (Runner.stepText row raw) = none ∧
      Item.ofStep k registries row raw = .pending (Runner.stepText row raw)) ∨
    (k.isComment (Runner.stepText row raw) = false ∧
      ∃ m, Registry.findAcross? registries (Runner.stepText row raw) = some m ∧
        Item.ofStep k registries row raw = .matched (Runner.stepText row raw) m) := by
  unfold Item.ofStep Runner.stepText
  dsimp only
  cases hc : k.isComment (row.elim raw fun x => x.substitute raw) with
  | true => exact .inl ⟨rfl, rfl⟩
  | false =>
    cases hm : Registry.findAcross? registries (row.elim raw fun x => x.substitute raw) with
    | none => exact .inr (.inl ⟨rfl, rfl, rfl⟩)
    | some m => exact .inr (.inr ⟨rfl, m, rfl, rfl⟩)

theorem Item.exists_of_canHave_ofStep {k : Keywords} {registries : List (Registry W)}
    {row : Option Row} {raw : Text} {o : Option StepOutcome}
    (h : (Item.ofStep k registries row raw).CanHave o) :
    ∃ x : StepOutcome, o = some x ∧ x.step = Runner.stepText row raw := by
  unfold ofStep at h
  dsimp only at h
  split at h
  · cases h
    exact ⟨_, rfl, rfl⟩
  · split at h <;> cases h <;> exact ⟨_, rfl, rfl⟩

theorem Item.says_turns_steps (s : Settings) (row : Option Row) (k : Keywords)
    (registries : List (Registry W)) (raws : List Text) :
    (Play.inOrder ((raws.map (.ofStep k registries row)).map (turn s row))).Says fun f j =>
      f = none ∧ StepOutcomes (raws.map (Runner.stepText row)) (eventsOf j) := by
  induction raws with
  | nil => exact Play.says_skip ⟨rfl, .nil⟩
  | cons raw raws ih =>
    rw [List.map_cons, List.map_cons, Play.inOrder_cons]
    refine says_turn_andThen _ fun calls o ho hcalls => ih.mono ?_
    rintro f j ⟨hf, hj⟩
    refine ⟨hf, ?_⟩
    obtain ⟨o, rfl, hstep⟩ := exists_of_canHave_ofStep ho
    rw [eventsOf_append, eventsOf_append, eventsOf_eq_nil_of_isCall hcalls, eventsOf_outcome,
      List.map_cons, ← hstep]
    exact .cons o hj

namespace Runner

variable (r : Runner W)

theorem says_storyHooks (place : HookPlace) :
    (r.storyHooks place).Says fun f j =>
      f = none ∧ HookOutcomes (r.registries.flatMap (·.hooksAt place))
        (eventsOf j) :=
  Item.says_sequence (Item.says_turns_hooks _ _ _)

theorem says_pass (steps : List Text) (row : Option Row) :
    (r.pass steps row).Says fun f j =>
      f = none ∧ r.PassStream steps row (eventsOf j) := by
  refine Item.says_sequence ?_
  rw [passItems, List.map_append, List.map_append, Play.inOrder_append, Play.inOrder_append,
    Play.andThen_assoc]
  refine Play.says_andThen_of_none (Item.says_turns_hooks _ _ _) fun i hi => ?_
  refine Play.says_andThen_of_none (Item.says_turns_steps _ _ _ _ _) fun j hj => ?_
  refine (Item.says_turns_hooks _ _ _).mono ?_
  rintro f k ⟨hf, hk⟩
  refine ⟨hf, ?_⟩
  rw [eventsOf_append, eventsOf_append, ← List.append_assoc]
  exact .pass hi hj hk

theorem says_rows (steps : List Text) (rows : List Row) :
    (Play.inOrder (rows.map fun row =>
      .inOrder [.report (.exampleRow row), r.pass steps (some row)])).Says fun f j =>
        f = none ∧ r.RowsStream steps rows (eventsOf j) := by
  induction rows with
  | nil => exact Play.says_skip ⟨rfl, .nil⟩
  | cons row rows ih =>
    simp only [List.map_cons, Play.inOrder_cons, Play.inOrder_nil, Play.andThen_skip] at ih ⊢
    rw [Play.andThen_assoc]
    refine Play.says_report_andThen (Play.says_andThen_of_none (r.says_pass _ _) fun i hi => ?_)
    refine ih.mono ?_
    rintro f j ⟨hf, hj⟩
    refine ⟨hf, ?_⟩
    rw [eventsOf_reported, eventsOf_append]
    exact .cons hi hj

theorem says_passes (s : Scenario) :
    (r.passes s).Says fun f j => f = none ∧ r.PassesStream s (eventsOf j) := by
  unfold passes
  split
  · next hrows =>
    refine (r.says_pass _ _).mono ?_
    rintro f j ⟨hf, hj⟩
    exact ⟨hf, .once hrows hj⟩
  · next hrows =>
    simp only [Play.inOrder_cons, Play.inOrder_nil, Play.andThen_skip]
    refine Play.says_report_andThen (Play.says_andThen_of_none (r.says_rows _ _) fun i hi => ?_)
    refine Play.says_report ⟨rfl, ?_⟩
    rw [eventsOf_reported, eventsOf_append]
    exact .rows hrows hi

/-! ### Given stories, scenarios and stories -/

section Stories

variable {given : Text → Play W} {opened : List Text}
  (hg : ∀ path, (given path).Says fun f j =>
    r.GivenStoryStream opened path f (eventsOf j))
include hg

theorem says_inOrder_given (paths : List Text) :
    (Play.inOrder (paths.map given)).Says fun f j =>
      r.GivenStoriesStream opened paths f (eventsOf j) := by
  induction paths with
  | nil => exact Play.says_skip .nil
  | cons path paths ih =>
    rw [List.map_cons, Play.inOrder_cons]
    refine Play.says_andThen ((hg path).mono fun f i hi => ?_)
    cases f with
    | some e => exact .aborted hi
    | none =>
      refine ih.mono fun g j hj => ?_
      rw [eventsOf_append]
      exact .cons hi hj

theorem says_givenStories (paths : List Text) :
    (givenStories given paths).Says fun f j =>
      ∃ es, eventsOf j = announcement paths ++ es ∧
        r.GivenStoriesStream opened paths f es := by
  unfold givenStories announcement
  split
  · next hp =>
    subst hp
    exact Play.says_skip ⟨[], rfl, .nil⟩
  · simp only [Play.inOrder_cons, Play.inOrder_nil, Play.andThen_skip]
    refine Play.says_report_andThen ((r.says_inOrder_given hg paths).mono fun f j hj => ?_)
    exact ⟨_, rfl, hj⟩

theorem says_scenario (s : Scenario) :
    (r.scenario given s).Says fun f j =>
      r.ScenarioStream opened s f (eventsOf j) := by
  simp only [scenario, Play.inOrder_cons, Play.inOrder_nil, Play.andThen_skip]
  refine Play.says_report_andThen (Play.says_ensuring (Play.says_andThen ?_))
  refine (r.says_givenStories hg _).mono fun f i hi => ?_
  obtain ⟨es, hes, hi⟩ := hi
  cases f with
  | some e =>
    refine Play.says_report ?_
    rw [eventsOf_reported, eventsOf_append, hes, ← List.cons_append, ← List.cons_append]
    exact .aborted hi
  | none =>
    refine (r.says_passes s).mono ?_
    rintro f j ⟨rfl, hj⟩
    refine Play.says_report ?_
    rw [eventsOf_reported, eventsOf_append, eventsOf_append, hes, ← List.cons_append,
      ← List.cons_append, ← List.cons_append]
    exact .completed hi hj

theorem says_scenarios (ss : List Scenario) :
    (Play.inOrder (ss.map (r.scenario given))).Says fun f j =>
      r.ScenariosStream opened ss f (eventsOf j) := by
  induction ss with
  | nil => exact Play.says_skip .nil
  | cons s ss ih =>
    rw [List.map_cons, Play.inOrder_cons]
    refine Play.says_andThen ((r.says_scenario hg s).mono fun f i hi => ?_)
    cases f with
    | some e => exact .aborted hi
    | none =>
      refine ih.mono fun g j hj => ?_
      rw [eventsOf_append]
      exact .cons hi hj

theorem says_story (s : Story) (embedded : Bool) :
    (r.story given s embedded).Says fun f j =>
      r.StoryStream opened s embedded f (eventsOf j) := by
  simp only [story, Play.inOrder_cons, Play.inOrder_nil, Play.andThen_skip]
  refine Play.says_report_andThen (Play.says_andThen_of_none (r.says_storyHooks _) fun i hi => ?_)
  refine Play.says_ensuring ((r.says_scenarios hg _).mono fun f j hj => ?_)
  refine Play.says_andThen_of_none (r.says_storyHooks _) fun k hk => Play.says_report ?_
  rw [eventsOf_reported, Option.or_none]
  simp only [eventsOf_append, ← List.append_assoc, ← List.cons_append]
  exact .story hi hj hk

end Stories

theorem says_givenStory (opened : List Text) (path : Text) :
    (r.givenStory opened path).Says fun f j =>
      r.GivenStoryStream opened path f (eventsOf j) := by
  refine r.givenStory_induction (P := fun opened path a => a.Says fun f j =>
    r.GivenStoryStream opened path f (eventsOf j)) ?_ ?_ ?_ opened path
  · exact fun opened path ho => Play.says_request_andThen (Play.says_fail (.recursive ho))
  · exact fun opened path ho hl => Play.says_request_andThen (Play.says_fail (.missing ho hl))
  · intro opened path text ho hl hg
    exact Play.says_request_andThen ((r.says_story hg _ _).mono fun f j hj => .found ho hl hj)

/-! ### Runs -/

/-- Whatever the stories, the registries and the handlers do, and however the run ends, its events
are a well-nested stream of the story. A given story that ended it early is the error of the run;
otherwise the run ends well or with the error of a step. -/
theorem stream_run (s : Story) (p : Progress W) :
    WellNested (r.run s p).events ∧
      ∃ aborted, r.StoryStream [s.path] s false aborted (r.run s p).events ∧
        ((r.run s p).fatal = aborted ∨
          aborted = none ∧ ∃ e, (r.run s p).fatal = some (.step e)) := by
  have h : r.StoryStream [s.path] s false (r.performance s p).fatal (r.performance s p).events :=
    r.says_story (r.says_givenStory [s.path]) s false { p with state := .initial }
  rw [r.events_run]
  refine ⟨h.wellNested, _, h, ?_⟩
  cases hf : (r.performance s p).fatal with
  | some e => exact .inl (by rw [r.run_of_some hf, hf])
  | none =>
    rw [r.run_of_none hf, verdict]
    split
    · exact .inl rfl
    · next e _ => exact .inr ⟨rfl, e, rfl⟩

end Runner

end PlainStory
