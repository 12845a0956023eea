import Mathlib.Data.List.Induction
import PlainStory.Proofs.Report.Outline
import PlainStory.Report.Reporter

/-!
# What a summary counts

A summary keeps the numbers of its report up to date with each event. Steps and stories are counted
in any stream. Where scenarios are nested, each of them is counted once, by the outcomes that belong
to it and to no scenario within it: `Outline.status`. The main statement gives all numbers of a fresh
summary after such a stream, and what it passes on.
-/

namespace PlainStory

/-! ### Kinds of outcomes -/

namespace StepOutcome

inductive Kind where
  | successful
  | failed
  | pending
  | notPerformed
  | comment
deriving DecidableEq

def kind : StepOutcome → Kind
  | successful _ => .successful
  | failed _ _ => .failed
  | pending _ => .pending
  | notPerformed _ => .notPerformed
  | comment _ => .comment

end StepOutcome

namespace Stats

/-- The number that stands for a kind. -/
def number (s : Stats) : StepOutcome.Kind → Nat
  | .successful => s.passed
  | .failed => s.failed
  | .pending => s.pending
  | .notPerformed => s.notPerformed
  | .comment => s.comments

/-- Counts one more of a kind. -/
def add (s : Stats) : StepOutcome.Kind → Stats
  | .successful => { s with passed := s.passed + 1 }
  | .failed => { s with failed := s.failed + 1 }
  | .pending => { s with pending := s.pending + 1 }
  | .notPerformed => { s with notPerformed := s.notPerformed + 1 }
  | .comment => { s with comments := s.comments + 1 }

theorem count_eq_add (s : Stats) (o : StepOutcome) : s.count o = s.add o.kind := by cases o <;> rfl

theorem number_add (s : Stats) (added k : StepOutcome.Kind) :
    (s.add added).number k = s.number k + if added = k then 1 else 0 := by
  cases added <;> cases k <;> rfl

theorem total_add (s : Stats) (added : StepOutcome.Kind) : (s.add added).total = s.total + 1 := by
  cases added <;> simp only [add, total] <;> omega

theorem number_foldl_add (s : Stats) (ks : List StepOutcome.Kind) (k : StepOutcome.Kind) :
    (ks.foldl add s).number k = s.number k + ks.count k := by
  induction ks generalizing s with
  | nil => rfl
  | cons added ks ih =>
    rw [List.foldl_cons, ih, number_add, List.count_cons, Nat.add_assoc,
      Nat.add_comm (ks.count k)]
    simp only [beq_iff_eq]

theorem total_foldl_add (s : Stats) (ks : List StepOutcome.Kind) :
    (ks.foldl add s).total = s.total + ks.length := by
  induction ks generalizing s with
  | nil => rfl
  | cons added ks ih =>
    rw [List.foldl_cons, ih, total_add, List.length_cons, Nat.add_assoc, Nat.add_comm 1]

end Stats

/-! ### The status of a scenario -/

namespace ScenarioStatus

/-- The kind that a scenario is counted as. -/
def kind : ScenarioStatus → StepOutcome.Kind
  | passed => .successful
  | pending => .pending
  | failed => .failed

theorem kind_eq_successful_iff {s : ScenarioStatus} : s.kind = .successful ↔ s = passed := by
  cases s <;> decide

theorem addTo_eq_add (s : ScenarioStatus) (stats : Stats) : s.addTo stats = stats.add s.kind := by
  cases s <;> rfl

/-- A scenario failed if any of its outcomes did, and else is pending if any of them is. -/
def ofOutcomes (os : List StepOutcome) : ScenarioStatus :=
  if os.any (·.kind = .failed) then failed
  else if os.any (·.kind = .pending) then pending
  else passed

theorem ofOutcomes_concat (os : List StepOutcome) (o : StepOutcome) :
    ofOutcomes (os ++ [o]) = (ofOutcomes os).note o := by
  unfold ofOutcomes
  rw [List.any_append, List.any_append]
  cases os.any (·.kind = .failed) <;> cases os.any (·.kind = .pending) <;> cases o <;> rfl

theorem foldl_note_passed (os : List StepOutcome) : os.foldl note passed = ofOutcomes os := by
  induction os using List.reverseRecOn with
  | nil => rfl
  | append_singleton os o ih => rw [List.foldl_append, ih, ofOutcomes_concat]; rfl

end ScenarioStatus

namespace Outline

/-- The outcomes that stand in none of the scenarios. -/
def outcomes (o : Outline) : List StepOutcome := o.own.filterMap Event.outcome?

/-- The status of a scenario in which there is this. -/
def status (o : Outline) : ScenarioStatus := .ofOutcomes o.outcomes

end Outline

namespace Summary

/-- The summary after a stream of events. -/
def after (s : Summary) (es : List Event) : Summary :=
  (Signal.passThrough step s (es.map .event)).1

/-- What it passes on during the stream. -/
def passed (s : Summary) (es : List Event) : List Signal :=
  (Signal.passThrough step s (es.map .event)).2

variable (s : Summary)

theorem after_cons (e : Event) (es : List Event) : s.after (e :: es) = (s.track e).after es := rfl

theorem after_append (es fs : List Event) : s.after (es ++ fs) = (s.after es).after fs := by
  rw [after, List.map_append, Signal.passThrough_append]
  rfl

theorem passed_cons (e : Event) (es : List Event) :
    s.passed (e :: es) = (s.step (.event e)).2 ++ (s.track e).passed es := rfl

theorem passed_append (es fs : List Event) :
    s.passed (es ++ fs) = s.passed es ++ (s.after es).passed fs := by
  rw [passed, List.map_append, Signal.passThrough_append]
  rfl

/-- A reporter behind a summary receives what that passes on. -/
theorem receive_summary (inner : Reporter) (es : List Event) :
    (Reporter.summary s inner).receive (es.map .event) =
      .summary (s.after es) (inner.receive (s.passed es)) := by
  rw [Reporter.receive]
  rfl

end Summary

/-! ### Any stream -/

def Event.isBeforeStory : Event → Bool
  | beforeStory _ _ => true
  | _ => false

def Signal.text? : Signal → Option Text
  | text t => some t
  | event _ => none

namespace Summary

variable (s : Summary)

theorem stories_after (es : List Event) :
    (s.after es).stories = s.stories + es.countP Event.isBeforeStory := by
  induction es generalizing s with
  | nil => rfl
  | cons e es ih =>
    have hstep : (s.track e).stories = s.stories + if e.isBeforeStory then 1 else 0 := by
      cases e with
      | afterScenario => rw [track]; cases s.running <;> rfl
      | _ => rfl
    rw [after_cons, ih, hstep, List.countP_cons]
    omega

theorem steps_after (es : List Event) :
    (s.after es).steps =
      ((es.filterMap Event.outcome?).map StepOutcome.kind).foldl Stats.add s.steps := by
  induction es generalizing s with
  | nil => rfl
  | cons e es ih =>
    rw [after_cons, ih]
    cases e with
    | outcome o => rw [track, Stats.count_eq_add]; rfl
    | afterScenario => rw [track]; cases s.running <;> rfl
    | _ => rfl

/-- An event is passed on, and behind the end of a story that was run by itself a text, which is the
summary after that event. -/
theorem passed_concat (past : List Event) (e : Event) :
    s.passed (past ++ [e]) = s.passed past ++ .event e ::
      if e = .afterStory false then [.text (s.after (past ++ [e])).render] else [] := by
  rw [passed_append, after_append]
  by_cases he : e = .afterStory false
  · subst he
    rfl
  · rw [if_neg he]
    have hstep : ((s.after past).step (.event e)).2 = [.event e] := if_neg he
    rw [passed_cons, hstep]
    rfl

/-- Every event is passed on, in its place. -/
theorem filterMap_event?_passed (es : List Event) : (s.passed es).filterMap Signal.event? = es := by
  induction es using List.reverseRecOn with
  | nil => rfl
  | append_singleton es e ih =>
    rw [passed_concat, List.filterMap_append, ih]
    split <;> rfl

/-- Behind each end of a story that was run by itself one text is passed on. -/
theorem length_filterMap_text?_passed (es : List Event) :
    ((s.passed es).filterMap Signal.text?).length = es.count (.afterStory false) := by
  induction es using List.reverseRecOn with
  | nil => rfl
  | append_singleton es e ih =>
    rw [passed_concat, List.filterMap_append, List.length_append, ih, List.count_append,
      List.count_singleton]
    by_cases he : e = .afterStory false
    · rw [if_pos he, if_pos (beq_iff_eq.2 he)]
      rfl
    · rw [if_neg he, if_neg (by simpa using he)]
      rfl

/-! ### Nested streams -/

/-- What outcomes make of the scenarios that are open: they belong to the innermost one. -/
theorem foldl_noteInnermost (os : List StepOutcome) (status : ScenarioStatus)
    (statuses : List ScenarioStatus) :
    os.foldl (fun ss o => noteInnermost o ss) (status :: statuses) =
      os.foldl ScenarioStatus.note status :: statuses := by
  induction os generalizing status with
  | nil => rfl
  | cons o os ih => exact ih (status.note o)

/-- Outcomes that stand in no scenario are not noted. -/
theorem foldl_noteInnermost_nil (os : List StepOutcome) :
    os.foldl (fun ss o => noteInnermost o ss) [] = [] := by
  induction os with
  | nil => rfl
  | cons o os ih => exact ih

/-- A nested stream has its own outcomes noted in the scenario around it, and its scenarios counted
by theirs. -/
theorem after_events (o : Outline) :
    (s.after o.events).running =
        o.outcomes.foldl (fun ss o => noteInnermost o ss) s.running ∧
      (s.after o.events).scenarios =
        (o.scenarios.map fun inside => inside.status.kind).foldl Stats.add s.scenarios := by
  induction o generalizing s with
  | nil => exact ⟨rfl, rfl⟩
  | event e outside rest ih =>
    obtain ⟨hrunning, hscenarios⟩ := ih (s.track e)
    rw [Outline.events, after_cons, hrunning, hscenarios]
    cases e with
    | beforeScenario title => cases outside
    | afterScenario => cases outside
    | _ => exact ⟨rfl, rfl⟩
  | scenario title inside rest ihInside ihRest =>
    let s₁ : Summary := s.track (.beforeScenario title)
    let s₂ : Summary := s₁.after inside.events
    let s₃ : Summary := s₂.track .afterScenario
    obtain ⟨hrunningInside, hscenariosInside⟩ := ihInside s₁
    obtain ⟨hrunningRest, hscenariosRest⟩ := ihRest s₃
    have hrunning₂ : s₂.running = inside.status :: s.running := by
      rw [Outline.status, ← ScenarioStatus.foldl_note_passed, ← foldl_noteInnermost]
      exact hrunningInside
    have hclose : s₃ = { s₂ with
        scenarios := s₂.scenarios.add inside.status.kind, running := s.running } := by
      rw [← ScenarioStatus.addTo_eq_add]
      simp only [s₃, track, hrunning₂]
    have hevents : s.after (Outline.scenario title inside rest).events = s₃.after rest.events := by
      rw [Outline.events, after_cons, after_append, after_cons]
    have hscenarios₂ : s₂.scenarios =
        (inside.scenarios.map fun inside => inside.status.kind).foldl Stats.add s.scenarios :=
      hscenariosInside
    rw [hevents, hrunningRest, hscenariosRest, hclose, Outline.scenarios, List.map_append,
      List.foldl_append, List.map_cons, List.foldl_cons, ← hscenarios₂]
    exact ⟨rfl, rfl⟩

/-- The scenarios that are counted as passed. -/
theorem passed_after_events (o : Outline) :
    (s.after o.events).scenarios.passed =
      s.scenarios.passed + o.scenarios.countP (·.status = .passed) := by
  have hnumber : (s.after o.events).scenarios.passed = s.scenarios.passed +
      (o.scenarios.map fun inside => inside.status.kind).count .successful := by
    rw [(s.after_events o).2]
    exact Stats.number_foldl_add s.scenarios _ .successful
  rw [hnumber, List.count_eq_countP, List.countP_map]
  congr 1
  exact List.countP_congr fun inside _ => by simp [ScenarioStatus.kind_eq_successful_iff]

/-! ### The main statement -/

/-- What the numbers of a summary are after a stream with nested scenarios. -/
structure CountsOf (es : List Event) (t : Summary) : Prop where
  /-- Each outcome is counted once, under its own kind. -/
  steps : ∀ k, t.steps.number k = ((es.filterMap Event.outcome?).map StepOutcome.kind).count k
  stepsTotal : t.steps.total = (es.filterMap Event.outcome?).length
  /-- Each scenario is counted once, when it is closed, by the outcomes that belong to it. -/
  scenarios : ∀ k, t.scenarios.number k =
    ((Outline.ofEvents es).scenarios.map fun inside => inside.status.kind).count k
  scenariosTotal : t.scenarios.total = es.count .afterScenario
  stories : t.stories = es.countP Event.isBeforeStory
  /-- No scenario is taken for open any more. -/
  running : t.running = []

/-- A new summary counts a stream with nested scenarios. The reporter behind it receives every event,
in order, and one text for each end of a story that was run by itself: directly behind that event, the
summary of the stream up to there. -/
theorem countsOf_nested {es : List Event} (h : ScenariosNested es) (painted : Bool)
    (elapsed : Text) :
    let s : Summary := { painted := painted, elapsed := elapsed }
    (Outline.ofEvents es).events = es ∧ CountsOf es (s.after es) ∧
      (∀ inner : Reporter, (Reporter.summary s inner).receive (es.map .event) =
        .summary (s.after es) (inner.receive (s.passed es))) ∧
      (s.passed es).filterMap Signal.event? = es ∧
      ((s.passed es).filterMap Signal.text?).length = es.count (.afterStory false) ∧
      ∀ past e, s.passed (past ++ [e]) = s.passed past ++ .event e ::
        if e = .afterStory false then [.text (s.after (past ++ [e])).render] else [] := by
  intro s
  have hevents := Outline.events_ofEvents h
  obtain ⟨hrunning, hscenarios⟩ := s.after_events (Outline.ofEvents es)
  have hsteps := s.steps_after es
  rw [hevents] at hrunning hscenarios
  refine ⟨hevents, ⟨fun k => ?_, ?_, fun k => ?_, ?_, ?_, ?_⟩, fun inner => s.receive_summary inner es,
    s.filterMap_event?_passed es, s.length_filterMap_text?_passed es, s.passed_concat⟩
  · rw [hsteps, Stats.number_foldl_add]
    cases k <;> exact Nat.zero_add _
  · rw [hsteps, Stats.total_foldl_add, List.length_map]
    exact Nat.zero_add _
  · rw [hscenarios, Stats.number_foldl_add]
    cases k <;> exact Nat.zero_add _
  · rw [hscenarios, Stats.total_foldl_add, List.length_map, Outline.length_scenarios, hevents]
    exact Nat.zero_add _
  · rw [s.stories_after]
    exact Nat.zero_add _
  · rw [hrunning, foldl_noteInnermost_nil]

/-- A step that fails in a given story is counted with the scenario of that story, and the one around
it only has a step that is pending. -/
theorem countsOf_nested_of_failed_given_step :
    let es : List Event :=
      [.beforeStory {} false, .beforeScenario "outer", .beforeStory {} true,
        .beforeScenario "inner", .outcome (.failed "Given x" (.pending "Given x")), .afterScenario,
        .afterStory true, .outcome (.pending "Then y"), .afterScenario, .afterStory false]
    let s : Summary := {}
    ScenariosNested es ∧
      (Outline.ofEvents es).scenarios.map Outline.status = [.failed, .pending] ∧
      CountsOf es (s.after es) ∧ (s.after es).scenarios = { failed := 1, pending := 1 } := by
  intro es s
  have hnested : ScenariosNested es := by decide
  exact ⟨hnested, rfl, (countsOf_nested hnested false "0s").2.1, rfl⟩

end Summary

end PlainStory
