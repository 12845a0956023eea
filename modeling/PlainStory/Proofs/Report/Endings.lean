import Mathlib.Algebra.Group.Int.Defs
import Mathlib.Data.List.Forall2
import PlainStory.Proofs.Report.Quiet
import PlainStory.Proofs.Report.Summary
import PlainStory.Proofs.Run.Closings
import PlainStory.Proofs.Run.Nesting
import PlainStory.Proofs.Run.Stream

/-!
# What is counted as passed

A scenario that is ended early by one of its given stories is closed like any other, so a summary
counts it by the outcomes that were reported in it until then, and as passed where none of these is
failed or pending. The scenarios of a stream are those that the story and the library say that the run
closes (`Runner.closings`), one by one and in this order. The main statement says of every run which of
those that are counted as passed were carried out: those that no given story ended. Such a scenario can
be told by its events, for not all the stories that are announced in it were begun.
-/

namespace PlainStory

variable {W : Type}

/-! ### Events of passes -/

/-- Whether an event is one of those that a pass, or a hook, reports. -/
def Event.isInPass : Event → Bool
  | outcome _ | beforeExamples _ _ | exampleRow _ | afterExamples => true
  | _ => false

theorem Event.isScenarioBound_of_isInPass {e : Event} (h : e.isInPass = true) :
    e.isScenarioBound = false := by
  cases e with
  | beforeScenario title => exact absurd h nofun
  | afterScenario => exact absurd h nofun
  | _ => rfl

theorem isInPass_of_hookOutcomes {hooks : List (Hook W)} {es : List Event}
    (h : HookOutcomes hooks es) : ∀ e ∈ es, e.isInPass = true := by
  induction h with
  | nil => exact List.forall_mem_nil _
  | silent _ ih => exact ih
  | failed f _ ih => exact List.forall_mem_cons.2 ⟨rfl, ih⟩

theorem isInPass_of_stepOutcomes {steps : List Text} {es : List Event}
    (h : StepOutcomes steps es) : ∀ e ∈ es, e.isInPass = true := by
  induction h with
  | nil => exact List.forall_mem_nil _
  | cons o _ ih => exact List.forall_mem_cons.2 ⟨rfl, ih⟩

namespace Runner

variable {r : Runner W}

theorem PassStream.isInPass {steps : List Text} {row : Option Row} {es : List Event}
    (h : r.PassStream steps row es) : ∀ e ∈ es, e.isInPass = true := by
  obtain ⟨hbefore, hsteps, hafter⟩ := h
  rw [List.forall_mem_append, List.forall_mem_append]
  exact ⟨⟨isInPass_of_hookOutcomes hbefore, isInPass_of_stepOutcomes hsteps⟩,
    isInPass_of_hookOutcomes hafter⟩

theorem RowsStream.isInPass {steps : List Text} {rows : List Row} {es : List Event}
    (h : r.RowsStream steps rows es) : ∀ e ∈ es, e.isInPass = true := by
  induction h with
  | nil => exact List.forall_mem_nil _
  | cons pass _ ih =>
    exact List.forall_mem_append.2 ⟨List.forall_mem_cons.2 ⟨rfl, pass.isInPass⟩, ih⟩

theorem PassesStream.isInPass {s : Scenario} {es : List Event} (h : r.PassesStream s es) :
    ∀ e ∈ es, e.isInPass = true := by
  cases h with
  | once _ pass => exact pass.isInPass
  | rows _ rows =>
    exact List.forall_mem_append.2
      ⟨List.forall_mem_cons.2 ⟨rfl, rows.isInPass⟩, List.forall_mem_singleton.2 rfl⟩

end Runner

/-! ### Stories that are announced and not begun -/

/-- How many more given stories are awaited after an event than before it: those that it announces,
or one fewer where one is begun. -/
def Event.awaited : Event → Int
  | givenStories paths => paths.length
  | beforeStory _ true => -1
  | _ => 0

/-- The number of given stories that are announced in a stream and not begun. -/
def awaitedIn : List Event → Int
  | [] => 0
  | e :: es => e.awaited + awaitedIn es

@[simp] theorem awaitedIn_cons (e : Event) (es : List Event) :
    awaitedIn (e :: es) = e.awaited + awaitedIn es := rfl

@[simp] theorem awaitedIn_append (es fs : List Event) :
    awaitedIn (es ++ fs) = awaitedIn es + awaitedIn fs := by
  induction es with
  | nil => exact (Int.zero_add _).symm
  | cons e es ih => rw [List.cons_append, awaitedIn_cons, awaitedIn_cons, ih, Int.add_assoc]

theorem awaitedIn_of_isInPass {es : List Event} (h : ∀ e ∈ es, e.isInPass = true) :
    awaitedIn es = 0 := by
  induction es with
  | nil => rfl
  | cons e es ih =>
    rw [List.forall_mem_cons] at h
    rw [awaitedIn_cons, ih h.2]
    cases e with
    | givenStories paths => exact absurd h.1 nofun
    | beforeStory s embedded => exact absurd h.1 nofun
    | _ => rfl

/-- What is awaited at the end of a part of a run: nothing, if it came to its end, and something, if
a given story ended it early. -/
def Awaits (n : Int) : Option RunError → Prop
  | none => n = 0
  | some _ => 0 < n

namespace Runner

variable {r : Runner W}

@[simp] theorem awaitedIn_announcement (paths : List Text) :
    awaitedIn (announcement paths) = paths.length := by
  unfold announcement
  split
  · next hp => rw [hp]; rfl
  · exact Int.add_zero _

mutual

theorem StoryStream.awaits {opened : List Text} {s : Story} {embedded : Bool}
    {aborted : Option RunError} {es : List Event} (h : r.StoryStream opened s embedded aborted es) :
    Awaits (awaitedIn es + embedded.toNat) aborted := by
  match h with
  | .story hbefore hscenarios hafter =>
    have hbefore := awaitedIn_of_isInPass (isInPass_of_hookOutcomes hbefore)
    have hafter := awaitedIn_of_isInPass (isInPass_of_hookOutcomes hafter)
    have hstart : (Event.beforeStory s embedded).awaited = -embedded.toNat := by
      cases embedded <;> rfl
    have hend : awaitedIn [.afterStory embedded] = 0 := rfl
    simp only [List.cons_append, awaitedIn_cons, awaitedIn_append, hstart, hbefore, hafter, hend,
      Int.zero_add, Int.add_zero, neg_add_cancel_comm]
    exact hscenarios.awaits

theorem ScenariosStream.awaits {opened : List Text} {ss : List Scenario}
    {aborted : Option RunError} {es : List Event} (h : r.ScenariosStream opened ss aborted es) :
    Awaits (awaitedIn es) aborted := by
  match h with
  | .nil => rfl
  | .cons first rest =>
    have hfirst : awaitedIn _ = 0 := first.awaits
    rw [awaitedIn_append, hfirst, Int.zero_add]
    exact rest.awaits
  | .aborted first => exact first.awaits

theorem ScenarioStream.awaits {opened : List Text} {s : Scenario} {aborted : Option RunError}
    {es : List Event} (h : r.ScenarioStream opened s aborted es) :
    Awaits (awaitedIn es) aborted := by
  match h with
  | .completed given passes =>
    have hgiven := given.awaits
    have hpasses := awaitedIn_of_isInPass passes.isInPass
    have hend : awaitedIn [.afterScenario] = 0 := rfl
    simp only [List.cons_append, awaitedIn_cons, awaitedIn_append, Event.awaited, hpasses, hend,
      awaitedIn_announcement, Int.zero_add, Int.add_zero, Int.add_comm s.givenStories.length]
    exact hgiven
  | .aborted given =>
    have hgiven := given.awaits
    have hend : awaitedIn [.afterScenario] = 0 := rfl
    simp only [List.cons_append, awaitedIn_cons, awaitedIn_append, Event.awaited, hend,
      awaitedIn_announcement, Int.zero_add, Int.add_zero, Int.add_comm s.givenStories.length]
    exact hgiven

theorem GivenStoriesStream.awaits {opened paths : List Text} {aborted : Option RunError}
    {es : List Event} (h : r.GivenStoriesStream opened paths aborted es) :
    Awaits (awaitedIn es + paths.length) aborted := by
  match h with
  | .nil => rfl
  | @GivenStoriesStream.cons _ _ _ path paths _ es fs first rest =>
    have hfirst : awaitedIn es + 1 = 0 := first.awaits
    have hsum : awaitedIn (es ++ fs) + (path :: paths).length = awaitedIn fs + paths.length := by
      rw [awaitedIn_append, List.length_cons]
      omega
    rw [hsum]
    exact rest.awaits
  | .aborted first =>
    have hfirst : 0 < awaitedIn _ + 1 := first.awaits
    change 0 < awaitedIn _ + _
    rw [List.length_cons]
    omega

theorem GivenStoryStream.awaits {opened : List Text} {path : Text} {aborted : Option RunError}
    {es : List Event} (h : r.GivenStoryStream opened path aborted es) :
    Awaits (awaitedIn es + 1) aborted := by
  match h with
  | .recursive _ => exact Int.one_pos
  | .missing _ _ => exact Int.one_pos
  | .found _ _ story => exact story.awaits

end

end Runner

/-! ### The scenarios of a stream -/

/-- All that is reported of a scenario in which there is this. -/
def Scenario.eventsAround (s : Scenario) (inside : Outline) : List Event :=
  .beforeScenario s.title :: (inside.events ++ [.afterScenario])

theorem Scenario.awaitedIn_eventsAround (s : Scenario) (inside : Outline) :
    awaitedIn (s.eventsAround inside) = awaitedIn inside.events := by
  have hstart : (Event.beforeScenario s.title).awaited = 0 := rfl
  have hend : awaitedIn [.afterScenario] = 0 := rfl
  rw [eventsAround, awaitedIn_cons, awaitedIn_append, hstart, hend, Int.zero_add, Int.add_zero]

theorem isScenarioBound_announcement (paths : List Text) :
    ∀ e ∈ Runner.announcement paths, e.isScenarioBound = false := by
  unfold Runner.announcement
  split
  · exact List.forall_mem_nil _
  · exact List.forall_mem_singleton.2 rfl

namespace Runner

variable {r : Runner W}

variable (r) in
/-- What is in a scenario of a stream that is closed as the run closes it. -/
def Shows (x : Closing) (inside : Outline) : Prop :=
  r.ScenarioStream x.opened x.scenario x.aborted (x.scenario.eventsAround inside)

variable (r) in
/-- A stream of a part of a run that was ended early or not: the scenarios in it, in the order in which
they are closed, are those that the part closes, one by one. -/
structure Closes (c : Closings) (aborted : Option RunError) (es : List Event) : Prop where
  aborted : c.aborted = aborted
  outline : ∃ o : Outline, o.events = es ∧ List.Forall₂ r.Shows c.closed o.scenarios

namespace Closes

variable {c d : Closings} {aborted : Option RunError} {es fs : List Event}

theorem nil (aborted : Option RunError) : r.Closes { aborted } aborted [] := ⟨rfl, .nil, rfl, .nil⟩

theorem andThen (h : r.Closes c none es) (k : r.Closes d aborted fs) :
    r.Closes (c.andThen d) aborted (es ++ fs) := by
  obtain ⟨o, rfl, ho⟩ := h.outline
  obtain ⟨o', rfl, ho'⟩ := k.outline
  rw [Closings.andThen_of_none h.aborted]
  refine ⟨k.aborted, o.append o', o.events_append o', ?_⟩
  rw [Outline.scenarios_append]
  exact List.rel_append ho ho'

theorem andThen_of_some {e : RunError} (h : r.Closes c (some e) es) (d : Closings) :
    r.Closes (c.andThen d) (some e) es := by
  rw [Closings.andThen_of_some h.aborted]
  exact h

/-- What bounds no scenario closes none. -/
theorem between {before after : List Event} (hbefore : ∀ e ∈ before, e.isScenarioBound = false)
    (h : r.Closes c aborted es) (hafter : ∀ e ∈ after, e.isScenarioBound = false) :
    r.Closes c aborted (before ++ es ++ after) := by
  obtain ⟨o, rfl, ho⟩ := h.outline
  obtain ⟨first, rfl, -, hfirst⟩ := Outline.exists_flat hbefore
  obtain ⟨last, rfl, -, hlast⟩ := Outline.exists_flat hafter
  refine ⟨h.aborted, (first.append o).append last, by simp only [Outline.events_append], ?_⟩
  rw [Outline.scenarios_append, Outline.scenarios_append, hfirst, hlast, List.nil_append,
    List.append_nil]
  exact ho

/-- The scenario around a part of a run is closed behind all that is closed in it. -/
theorem around (h : r.Closes c aborted es) {opened : List Text} {s : Scenario}
    (hs : r.ScenarioStream opened s aborted (.beforeScenario s.title :: (es ++ [.afterScenario]))) :
    r.Closes (c.around opened s) aborted (.beforeScenario s.title :: (es ++ [.afterScenario])) := by
  obtain ⟨o, rfl, ho⟩ := h.outline
  rw [← h.aborted] at hs
  exact ⟨h.aborted, .scenario s.title o .nil, rfl, List.rel_append ho (.cons hs .nil)⟩

end Closes

mutual

theorem StoryStream.closes {opened : List Text} {s : Story} {embedded : Bool}
    {aborted : Option RunError} {es : List Event} (h : r.StoryStream opened s embedded aborted es) :
    r.Closes (r.closings opened s.scenarios) aborted es := by
  match h with
  | @StoryStream.story _ _ opened s embedded aborted before es after hbefore hscenarios hafter =>
    have hstart : ∀ e ∈ .beforeStory s embedded :: before, e.isScenarioBound = false :=
      List.forall_mem_cons.2 ⟨rfl, fun e he =>
        Event.isScenarioBound_of_isInPass (isInPass_of_hookOutcomes hbefore e he)⟩
    have hend : ∀ e ∈ after ++ [.afterStory embedded], e.isScenarioBound = false :=
      List.forall_mem_append.2 ⟨fun e he =>
        Event.isScenarioBound_of_isInPass (isInPass_of_hookOutcomes hafter e he),
        List.forall_mem_singleton.2 rfl⟩
    have hall := hscenarios.closes.between hstart hend
    rwa [← List.append_assoc] at hall

theorem ScenariosStream.closes {opened : List Text} {ss : List Scenario} {aborted : Option RunError}
    {es : List Event} (h : r.ScenariosStream opened ss aborted es) :
    r.Closes (r.closings opened ss) aborted es := by
  match h with
  | .nil => exact .nil none
  | .cons first rest => exact first.closes.andThen rest.closes
  | .aborted first => exact first.closes.andThen_of_some _

theorem ScenarioStream.closes {opened : List Text} {s : Scenario} {aborted : Option RunError}
    {es : List Event} (h : r.ScenarioStream opened s aborted es) :
    r.Closes (.ofScenario (r.closingsAt opened) opened s) aborted es := by
  have hannounced := isScenarioBound_announcement s.givenStories
  match h with
  | .completed given passes =>
    have hpasses := fun e he => Event.isScenarioBound_of_isInPass (passes.isInPass e he)
    exact (given.closes.between hannounced hpasses).around (.completed given passes)
  | .aborted given =>
    have hinside := given.closes.between hannounced (List.forall_mem_nil _)
    rw [List.append_nil] at hinside
    exact hinside.around (.aborted given)

theorem GivenStoriesStream.closes {opened paths : List Text} {aborted : Option RunError}
    {es : List Event} (h : r.GivenStoriesStream opened paths aborted es) :
    r.Closes (.inOrder (paths.map (r.closingsAt opened))) aborted es := by
  match h with
  | .nil => exact .nil none
  | .cons first rest => exact first.closes.andThen rest.closes
  | .aborted first => exact first.closes.andThen_of_some _

theorem GivenStoryStream.closes {opened : List Text} {path : Text} {aborted : Option RunError}
    {es : List Event} (h : r.GivenStoryStream opened path aborted es) :
    r.Closes (r.closingsAt opened path) aborted es := by
  match h with
  | .recursive ho =>
    rw [r.closingsAt_of_mem ho]
    exact .nil _
  | .missing ho hl =>
    rw [r.closingsAt_of_missing ho hl]
    exact .nil _
  | .found ho hl story =>
    rw [r.closingsAt_of_found ho hl]
    exact story.closes

end

end Runner

/-! ### Scenarios that were carried out -/

/-- A scenario is passed as long as no outcome is worth reporting. -/
theorem ScenarioStatus.note_eq_passed_iff (s : ScenarioStatus) (o : StepOutcome) :
    s.note o = passed ↔ s = passed ∧ (Event.outcome o).isNoteworthy = false := by
  cases s <;> cases o <;> simp [note, Event.isNoteworthy]

theorem ScenarioStatus.ofOutcomes_eq_passed_iff {os : List StepOutcome} :
    ofOutcomes os = passed ↔ ∀ o ∈ os, (Event.outcome o).isNoteworthy = false := by
  induction os using List.reverseRecOn with
  | nil => exact ⟨fun _ => List.forall_mem_nil _, fun _ => rfl⟩
  | append_singleton os o ih =>
    rw [ofOutcomes_concat, note_eq_passed_iff, ih, List.forall_mem_append,
      List.forall_mem_singleton]

namespace Runner

variable {r : Runner W}

variable (r) in
/-- What was reported in a scenario that was carried out: all its given stories up to their ends, and
then its passes, with an outcome for each step and none that is failed or pending. -/
def CarriedOut (opened : List Text) (s : Scenario) (inside : Outline) : Prop :=
  ∃ given passes, r.GivenStoriesStream opened s.givenStories none given ∧
    r.PassesStream s passes ∧ inside.events = announcement s.givenStories ++ given ++ passes ∧
    ∀ e ∈ passes, e.isNoteworthy = false

/-- All given stories that are announced in a scenario that was carried out are begun. -/
theorem CarriedOut.awaitedIn_eq {opened : List Text} {s : Scenario} {inside : Outline}
    (h : r.CarriedOut opened s inside) : awaitedIn inside.events = 0 := by
  obtain ⟨given, passes, hgiven, hpasses, hinside, -⟩ := h
  have hawaits : awaitedIn given + s.givenStories.length = 0 := hgiven.awaits
  rw [hinside, awaitedIn_append, awaitedIn_append, awaitedIn_announcement,
    awaitedIn_of_isInPass hpasses.isInPass]
  omega

/-- A scenario that no given story ended was carried out, if it is counted as passed. -/
theorem carriedOut_of_status {opened : List Text} {s : Scenario} {inside : Outline}
    (h : r.ScenarioStream opened s none (s.eventsAround inside)) (hstatus : inside.status = .passed) :
    r.CarriedOut opened s inside := by
  generalize hevents : s.eventsAround inside = es at h
  cases h with
  | @completed _ _ given passes hgiven hpasses =>
    have hinside : inside.events = announcement s.givenStories ++ given ++ passes :=
      List.append_cancel_right (List.cons.inj hevents).2
    have hbefore := hgiven.closes.between (isScenarioBound_announcement s.givenStories)
      (List.forall_mem_nil _)
    rw [List.append_nil] at hbefore
    obtain ⟨before, hevents, -⟩ := hbefore.outline
    refine ⟨given, passes, hgiven, hpasses, hinside, fun e he => ?_⟩
    -- the passes stand in no scenario further inside, so their outcomes belong to this one
    have hown : e ∈ inside.own := by
      rw [← hevents] at hinside
      rw [Outline.own_of_events hinside fun e he =>
        Event.isScenarioBound_of_isInPass (hpasses.isInPass e he)]
      exact List.mem_append_right _ he
    cases e with
    | outcome o =>
      exact ScenarioStatus.ofOutcomes_eq_passed_iff.1 hstatus o (List.mem_filterMap.2 ⟨_, hown, rfl⟩)
    | _ => rfl

variable (r) in
/-- How a scenario that is closed is counted: by what is in it. If it is counted as passed, it was
carried out exactly if no given story ended it early. -/
structure Counted (x : Closing) (inside : Outline) : Prop where
  shows : r.Shows x inside
  carriedOut : inside.status = .passed → (r.CarriedOut x.opened x.scenario inside ↔ x.aborted = none)
  /-- A scenario that was ended early can be told by what was reported in it. -/
  awaits : x.aborted = none ↔ awaitedIn inside.events = 0

theorem Shows.counted {x : Closing} {inside : Outline} (h : r.Shows x inside) :
    r.Counted x inside := by
  have hawaits : Awaits (awaitedIn inside.events) x.aborted := by
    rw [← x.scenario.awaitedIn_eventsAround inside]
    exact ScenarioStream.awaits h
  have hiff : x.aborted = none ↔ awaitedIn inside.events = 0 := by
    cases haborted : x.aborted with
    | none =>
      rw [haborted] at hawaits
      exact iff_of_true rfl hawaits
    | some e =>
      rw [haborted] at hawaits
      exact iff_of_false (Option.some_ne_none e) (Int.ne_of_gt hawaits)
  refine ⟨h, fun hstatus => ⟨fun hcarried => hiff.2 hcarried.awaitedIn_eq, fun haborted => ?_⟩, hiff⟩
  rw [Shows, haborted] at h
  exact carriedOut_of_status h hstatus

end Runner

/-! ### The main statement -/

namespace Runner

variable (r : Runner W)

/-- What a new summary counts of a run of a story. The scenarios of the stream are those that the story
closes, one by one, and those of them that are counted as passed were carried out, apart from those that
a given story ended early. -/
structure Tally (s : Story) (embedded : Bool) (t : Trace W) : Prop where
  stream : r.StoryStream [s.path] s embedded (r.closings [s.path] s.scenarios).aborted t.events
  nested : ScenariosNested t.events
  scenarios : List.Forall₂ r.Counted (r.closings [s.path] s.scenarios).closed
    (Outline.ofEvents t.events).scenarios
  passed : ∀ (painted : Bool) (elapsed : Text),
    let summary : Summary := { painted := painted, elapsed := elapsed }
    (summary.after t.events).scenarios.passed =
      (Outline.ofEvents t.events).scenarios.countP (·.status = .passed)
  /-- There are scenarios that were ended early exactly if a given story ended the run, with the error
  of that. -/
  aborted : ∀ e, (∃ x ∈ (r.closings [s.path] s.scenarios).closed, x.aborted = some e) ↔
    t.fatal = some e ∧ ∀ f, e ≠ .step f

variable {r} in
/-- Only the stream counts, and the error if it is that of a given story. -/
theorem Tally.congr {s : Story} {embedded : Bool} {t u : Trace W} (h : r.Tally s embedded t)
    (hevents : u.events = t.events)
    (hfatal : ∀ e, (∀ f, e ≠ .step f) → (u.fatal = some e ↔ t.fatal = some e)) :
    r.Tally s embedded u where
  stream := hevents ▸ h.stream
  nested := hevents ▸ h.nested
  scenarios := hevents ▸ h.scenarios
  passed := hevents ▸ h.passed
  aborted := fun e => (h.aborted e).trans (and_congr_left fun he => (hfatal e he).symm)

theorem tally_story (s : Story) (embedded : Bool) (p : Progress W) :
    r.Tally s embedded (r.story (r.givenStory [s.path]) s embedded p) := by
  let t : Trace W := r.story (r.givenStory [s.path]) s embedded p
  have hstream : r.StoryStream [s.path] s embedded t.fatal t.events :=
    r.says_story (r.says_givenStory [s.path]) s embedded p
  have haborted : (r.closings [s.path] s.scenarios).aborted = t.fatal := hstream.closes.aborted
  obtain ⟨o, hevents, hscenarios⟩ := hstream.closes.outline
  have houtline : Outline.ofEvents t.events = o := by rw [← hevents, Outline.ofEvents_events]
  refine ⟨haborted ▸ hstream, hevents ▸ o.scenariosNested, ?_, fun painted elapsed => ?_, fun e => ?_⟩
  · change List.Forall₂ r.Counted _ (Outline.ofEvents t.events).scenarios
    rw [houtline]
    exact hscenarios.imp fun x inside => Shows.counted
  · intro summary
    change (summary.after t.events).scenarios.passed =
      (Outline.ofEvents t.events).scenarios.countP _
    rw [houtline, ← hevents, Summary.passed_after_events]
    exact Nat.zero_add _
  · rw [r.exists_aborted_iff, haborted]
    refine ⟨fun he => ⟨he, ?_⟩, And.left⟩
    rintro f rfl
    exact r.aborted_closings_ne_step [s.path] s.scenarios f (haborted.trans he)

/-- Every run has such a tally, whether the story is run by itself or as an embedded one. So a scenario
that is counted as passed was carried out unless one of its given stories ended it early, and where
the run is not ended by a given story no scenario is. -/
theorem carriedOut_of_passed_run (s : Story) (p : Progress W) :
    r.Tally s false (r.run s p) ∧ r.Tally s true (r.runEmbedded s p) := by
  refine ⟨?_, r.tally_story s true p⟩
  refine (r.tally_story s false { p with state := .initial }).congr (r.events_run s p) fun e he => ?_
  change (r.run s p).fatal = some e ↔ (r.performance s p).fatal = some e
  cases hf : (r.performance s p).fatal with
  | some e' => rw [r.run_of_some hf, hf]
  | none =>
    rw [r.run_of_none hf, verdict]
    split
    · exact Iff.rfl
    · next f _ =>
      have hne : some (RunError.step f) ≠ some e := fun h => he f (Option.some.inj h).symm
      exact iff_of_false hne (by simp)

/-- A scenario that asks for a story that is not there is counted as passed, but none of its steps
was reported. -/
theorem passed_of_missing_given_story :
    let r : Runner Unit := {}
    let scenario : Scenario :=
      { title := "outer", givenStories := ["missing"], steps := ["Given x"] }
    let t := r.run { path? := some "top", scenarios := [scenario] } ⟨(), {}⟩
    let inside : Outline := .event (.givenStories ["missing"]) rfl .nil
    t.fatal = some (.load (.notFound "missing")) ∧
      (Outline.ofEvents t.events).scenarios = [inside] ∧ inside.status = .passed ∧
      (({} : Summary).after t.events).scenarios = { passed := 1 } ∧
      ∀ opened, ¬ r.CarriedOut opened scenario inside := by
  intro r scenario t inside
  let s : Story := { path? := some "top", scenarios := [scenario] }
  have hrun : t = r.runUpTo (fun _ _ => .skip) 1 s ⟨(), {}⟩ :=
    (congrFun (r.runUpTo_eq _ s) ⟨(), {}⟩).symm
  have hevents : t.events =
      .beforeStory s false :: (Outline.scenario "outer" inside .nil).events ++
        [.afterStory false] := by
    rw [hrun]
    decide +kernel
  refine ⟨?_, ?_, rfl, ?_, fun opened h => ?_⟩
  · rw [hrun]
    decide +kernel
  · rw [hevents]
    rfl
  · rw [hevents]
    rfl
  · exact absurd h.awaitedIn_eq (by decide)

end Runner

end PlainStory
