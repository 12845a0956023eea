import PlainStory.Proofs.Report.Outline
import PlainStory.Report.Reporter

/-!
# What a quiet report passes on

A quiet report is told one event at a time and keeps no more than what it holds back, how deep it is
and a mark. `Outline.shown` says what that amounts to: each outermost scenario is kept whole or left
out, by whether anything in it failed or was pending. The main statement is that this is what the
reporter behind a quiet report receives, and that events no scenario is open for are passed on in any
stream.
-/

namespace PlainStory

/-- What is left of a stream without the outermost scenarios in which nothing failed or was
pending. -/
def Outline.shown : Outline → List Event
  | nil => []
  | event e _ rest => e :: rest.shown
  | scenario title inside rest =>
    (if inside.events.any Event.isNoteworthy then
      .beforeScenario title :: inside.events ++ [.afterScenario]
    else []) ++ rest.shown

/-- How many more scenarios are open after an event, where `depth` are before it. -/
def Event.depthChange (depth : Nat) : Event → Int
  | beforeScenario _ => 1
  | afterScenario => if depth = 0 then 0 else -1
  | _ => 0

namespace Quiet

/-- The quiet report after a stream of events. -/
def after (q : Quiet) (es : List Event) : Quiet := (Signal.passThrough step q (es.map .event)).1

/-- What it passes on during the stream. -/
def passed (q : Quiet) (es : List Event) : List Signal :=
  (Signal.passThrough step q (es.map .event)).2

variable (q : Quiet)

@[simp] theorem after_nil : q.after [] = q := rfl

theorem after_cons (e : Event) (es : List Event) :
    q.after (e :: es) = (q.step (.event e)).1.after es := rfl

theorem passed_cons (e : Event) (es : List Event) :
    q.passed (e :: es) = (q.step (.event e)).2 ++ (q.step (.event e)).1.passed es := rfl

theorem after_append (es fs : List Event) : q.after (es ++ fs) = (q.after es).after fs := by
  rw [after, List.map_append, Signal.passThrough_append]
  rfl

theorem passed_append (es fs : List Event) :
    q.passed (es ++ fs) = q.passed es ++ (q.after es).passed fs := by
  rw [passed, List.map_append, Signal.passThrough_append]
  rfl

/-- A reporter behind a quiet report receives what that passes on. -/
theorem receive_quiet (inner : Reporter) (es : List Event) :
    (Reporter.quiet q inner).receive (es.map .event) =
      .quiet (q.after es) (inner.receive (q.passed es)) := by
  rw [Reporter.receive]
  rfl

/-! ### One event -/

variable {q}

theorem step_beforeScenario (title : Text) :
    q.step (.event (.beforeScenario title)) =
      ({ q with depth := q.depth + 1 }.hold (.beforeScenario title), []) := rfl

/-- Where no scenario is open every event but the beginning of one is passed on. -/
theorem step_outside (hq : q.depth = 0) {e : Event} (he : ∀ title, e ≠ .beforeScenario title) :
    q.step (.event e) = (q, [.event e]) := by
  cases e with
  | beforeScenario title => exact absurd rfl (he title)
  | _ => exact if_pos hq

/-- Within a scenario events are held back. -/
theorem step_inside (hq : 0 < q.depth) {e : Event} (he : e.isScenarioBound = false) :
    q.step (.event e) = (q.hold e, []) := by
  have hne : q.depth ≠ 0 := Nat.pos_iff_ne_zero.1 hq
  cases e with
  | beforeScenario title => exact absurd he nofun
  | afterScenario => exact absurd he nofun
  | _ => exact if_neg hne

/-- A scenario that stands in another one is closed without passing anything on. -/
theorem step_close_nested (hq : 1 < q.depth) :
    q.step (.event .afterScenario) =
      ({ q.hold .afterScenario with depth := q.depth - 1 }, []) := by
  have hstep : q.step (.event .afterScenario) = (q.hold .afterScenario).close :=
    if_neg (Nat.ne_of_gt (Nat.lt_of_succ_lt hq))
  rw [hstep]
  exact if_neg (Nat.not_le.2 hq)

/-- With the outermost scenario all that was held back is passed on, or dropped. -/
theorem step_close_outermost (hq : q.depth = 1) :
    q.step (.event .afterScenario) =
      ({}, if q.noteworthy then (q.held.reverse ++ [Event.afterScenario]).map .event else []) := by
  have hstep : q.step (.event .afterScenario) = (q.hold .afterScenario).close :=
    if_neg (hq ▸ Nat.one_ne_zero)
  have hclose : (q.hold .afterScenario).close = ({}, if (q.hold .afterScenario).noteworthy then
      (q.hold .afterScenario).held.reverse.map .event else []) := if_pos (Nat.le_of_eq hq)
  rw [hstep, hclose]
  simp [hold, Event.isNoteworthy]

/-! ### Any stream -/

/-- Where no scenario is open nothing is held back and no mark is set. -/
def IsClear (q : Quiet) : Prop := q.depth = 0 → q = {}

theorem IsClear.of_pos (h : 0 < q.depth) : q.IsClear := fun h0 => absurd h0 (Nat.ne_of_gt h)

/-- Each event changes the depth by the scenario that it opens or closes, and leaves the report clear
if it was. -/
theorem IsClear.step (hq : q.IsClear) (e : Event) :
    (q.step (.event e)).1.IsClear ∧
      ((q.step (.event e)).1.depth : Int) = q.depth + e.depthChange q.depth := by
  obtain ⟨title, rfl⟩ | rfl | he := e.bound_cases
  · exact ⟨.of_pos (Nat.succ_pos _), rfl⟩
  · obtain hd | hd | hd : q.depth = 0 ∨ q.depth = 1 ∨ 1 < q.depth := by omega
    · rw [step_outside (e := .afterScenario) hd nofun]
      exact ⟨hq, by simp [Event.depthChange, hd]⟩
    · rw [step_close_outermost hd, hd]
      exact ⟨fun _ => rfl, rfl⟩
    · rw [step_close_nested hd]
      refine ⟨.of_pos (Nat.sub_pos_of_lt hd), ?_⟩
      rw [Event.depthChange, if_neg (by omega)]
      exact Int.ofNat_sub (Nat.le_of_lt hd)
  · have hchange : e.depthChange q.depth = 0 := by
      cases e with
      | beforeScenario title => exact absurd he nofun
      | afterScenario => exact absurd he nofun
      | _ => rfl
    rw [hchange, Int.add_zero]
    obtain hd | hd := Nat.eq_zero_or_pos q.depth
    · rw [step_outside hd (by rintro title rfl; exact absurd he nofun)]
      exact ⟨hq, rfl⟩
    · rw [step_inside hd he]
      exact ⟨.of_pos hd, rfl⟩

theorem IsClear.after (hq : q.IsClear) (es : List Event) : (q.after es).IsClear := by
  induction es generalizing q with
  | nil => exact hq
  | cons e es ih => exact ih (hq.step e).1

/-! ### Nested streams -/

/-- The report after holding back a stream of events. -/
def holdAll (q : Quiet) (es : List Event) : Quiet :=
  { q with noteworthy := q.noteworthy || es.any Event.isNoteworthy, held := es.reverse ++ q.held }

theorem holdAll_cons (e : Event) (es : List Event) :
    q.holdAll (e :: es) = (q.hold e).holdAll es := by
  simp [holdAll, hold, Bool.or_assoc]

/-- Within a scenario a nested stream is held back as a whole. -/
theorem events_inside (o : Outline) (hq : 0 < q.depth) :
    q.after o.events = q.holdAll o.events ∧ q.passed o.events = [] := by
  induction o generalizing q with
  | nil => exact ⟨by simp [Outline.events, holdAll], rfl⟩
  | event e outside rest ih =>
    have hstep := step_inside hq outside
    obtain ⟨hafter, hpassed⟩ := ih (q := q.hold e) hq
    rw [Outline.events, after_cons, passed_cons, hstep, holdAll_cons]
    exact ⟨hafter, hpassed⟩
  | scenario title inside rest ihInside ihRest =>
    let q₁ : Quiet := { q with depth := q.depth + 1 }.hold (.beforeScenario title)
    let q₂ : Quiet := q₁.holdAll inside.events
    let q₃ : Quiet := { q₂.hold .afterScenario with depth := q.depth }
    obtain ⟨hafterInside, hpassedInside⟩ := ihInside (q := q₁) (Nat.succ_pos _)
    obtain ⟨hafterRest, hpassedRest⟩ := ihRest (q := q₃) hq
    have hclose : q₂.step (.event .afterScenario) = (q₃, []) :=
      step_close_nested (Nat.succ_lt_succ hq)
    have hheld : q₃.holdAll rest.events = q.holdAll (Outline.scenario title inside rest).events := by
      simp [q₃, q₂, q₁, holdAll, hold, Outline.events, Event.isNoteworthy, Bool.or_assoc]
    rw [← hheld, Outline.events, after_cons, passed_cons, step_beforeScenario, after_append,
      passed_append, hafterInside, hpassedInside, after_cons, passed_cons, hclose]
    exact ⟨hafterRest, hpassedRest⟩

/-- A nested stream is passed on as far as it is shown, and leaves nothing behind. -/
theorem events_outside (o : Outline) :
    ({} : Quiet).after o.events = {} ∧ ({} : Quiet).passed o.events = o.shown.map .event := by
  induction o with
  | nil => exact ⟨rfl, rfl⟩
  | event e outside rest ih =>
    have hstep : ({} : Quiet).step (.event e) = ({}, [.event e]) :=
      step_outside rfl (by rintro title rfl; exact absurd outside nofun)
    rw [Outline.events, after_cons, passed_cons, hstep, Outline.shown, List.map_cons, ← ih.2]
    exact ⟨ih.1, rfl⟩
  | scenario title inside rest _ ih =>
    let q₁ : Quiet := ({ depth := 1 } : Quiet).hold (.beforeScenario title)
    let q₂ : Quiet := q₁.holdAll inside.events
    obtain ⟨hafter, hpassed⟩ := events_inside (q := q₁) inside Nat.one_pos
    have hclose := step_close_outermost (q := q₂) rfl
    have hheld : q₂.held.reverse = .beforeScenario title :: inside.events := by
      simp [q₂, q₁, holdAll, hold]
    have hmark : q₂.noteworthy = inside.events.any Event.isNoteworthy := by
      simp [q₂, q₁, holdAll, hold, Event.isNoteworthy]
    rw [hheld, hmark] at hclose
    rw [Outline.events, after_cons, passed_cons, step_beforeScenario, after_append, passed_append,
      hafter, hpassed, after_cons, passed_cons, hclose, ih.2, Outline.shown, List.map_append]
    exact ⟨ih.1, by split <;> simp⟩

/-! ### The main statement -/

/-- The reporter behind a quiet report receives a stream with nested scenarios without the outermost
scenarios in which nothing failed or was pending, and otherwise as it is; at its end nothing is held
back, no scenario is open and no mark is set. In any stream at all the depth is changed by one for
each scenario that is opened or closed, and by nothing else, nothing is held back where no scenario is
open, and there every event but the beginning of a scenario is passed on at once. -/
theorem receive_shown :
    (∀ es : List Event, ScenariosNested es →
      (Outline.ofEvents es).events = es ∧
        ∀ inner : Reporter, (Reporter.quiet {} inner).receive (es.map .event) =
          .quiet {} (inner.receive ((Outline.ofEvents es).shown.map .event))) ∧
      ∀ (past : List Event) (e : Event),
        let q := ({} : Quiet).after past
        ((({} : Quiet).after (past ++ [e])).depth : Int) = q.depth + e.depthChange q.depth ∧
          (q.depth = 0 → q = {}) ∧
          (q.depth = 0 → (∀ title, e ≠ .beforeScenario title) →
            ({} : Quiet).passed (past ++ [e]) = ({} : Quiet).passed past ++ [.event e]) := by
  refine ⟨fun es h => ?_, fun past e => ?_⟩
  · have hevents := Outline.events_ofEvents h
    refine ⟨hevents, fun inner => ?_⟩
    obtain ⟨hafter, hpassed⟩ := events_outside (Outline.ofEvents es)
    rw [hevents] at hafter hpassed
    rw [receive_quiet, hafter, hpassed]
  · intro q
    have hclear : q.IsClear := IsClear.after (fun _ => rfl) past
    refine ⟨?_, hclear, fun hq he => ?_⟩
    · rw [after_append]
      exact (hclear.step e).2
    · rw [passed_append, passed_cons, step_outside hq he]
      rfl

/-- A scenario that went well is left out, and one in which a given story has a pending step is kept
whole. -/
theorem receive_shown_of_pending_given_step :
    let fine : List Event :=
      [.beforeScenario "fine", .outcome (.successful "Given a"), .afterScenario]
    let outer : List Event :=
      [.beforeScenario "outer", .beforeScenario "inner", .outcome (.pending "Given x"),
        .afterScenario, .outcome (.successful "Then y"), .afterScenario]
    let es := fine ++ outer ++ [Event.afterStory false]
    ScenariosNested es ∧
      (Reporter.quiet {} (.recorder [])).receive (es.map .event) =
        .quiet {} (.recorder ((outer ++ [Event.afterStory false]).map .event)) := by
  intro fine outer es
  have hnested : ScenariosNested es := by decide
  exact ⟨hnested, (receive_shown.1 es hnested).2 (.recorder [])⟩

end Quiet

end PlainStory
