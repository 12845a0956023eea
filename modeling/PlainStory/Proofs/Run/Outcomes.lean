import PlainStory.Proofs.Run.Stream
import PlainStory.Proofs.Step.Lookup

/-!
# The outcomes of a pass

The steps of a pass have one outcome each, in their order. `Sequential` is the law of that order:
all goes well up to the first step that failed or was pending, and behind it nothing is performed.
The main statement is that this holds of every pass, whatever its hooks do, and that each outcome
fits its step.
-/

namespace PlainStory

variable {W : Type}

/-! ### The order of outcomes -/

namespace StepOutcome

/-- Whether the steps behind an outcome are carried out as before. -/
def goesOn : StepOutcome → Bool
  | successful _ | comment _ => true
  | failed _ _ | pending _ | notPerformed _ => false

/-- Whether an outcome keeps the steps behind it from being performed. -/
def stops : StepOutcome → Bool
  | failed _ _ | pending _ => true
  | successful _ | notPerformed _ | comment _ => false

/-- Whether an outcome can stand behind one that stops. -/
def isSkipped : StepOutcome → Bool
  | notPerformed _ | comment _ => true
  | successful _ | failed _ _ | pending _ => false

theorem isNone_error? (o : StepOutcome) : o.error?.isNone = !o.stops := by cases o <;> rfl

end StepOutcome

/-- Outcomes of steps, one after another, given whether all went fine before them. -/
inductive Sequential : Bool → List StepOutcome → Prop where
  | nil {fine} : Sequential fine []
  | goesOn {o os} (ho : o.goesOn = true) (rest : Sequential true os) : Sequential true (o :: os)
  | stops {o os} (ho : o.stops = true) (rest : Sequential false os) : Sequential true (o :: os)
  | skipped {o os} (ho : o.isSkipped = true) (rest : Sequential false os) :
    Sequential false (o :: os)

namespace Sequential

theorem isSkipped {os : List StepOutcome} (h : Sequential false os) :
    ∀ o ∈ os, o.isSkipped = true := by
  generalize hf : false = fine at h
  induction h with
  | nil => exact nofun
  | goesOn | stops => exact absurd hf nofun
  | skipped ho _ ih => simpa [ho] using ih rfl

/-- All goes well up to an outcome that stops, if there is one, and behind it all is skipped. -/
theorem exists_parts {fine : Bool} {os : List StepOutcome} (h : Sequential fine os) :
    ∃ done stop skipped, os = done ++ stop ++ skipped ∧ (∀ o ∈ done, o.goesOn = true) ∧
      (∀ o ∈ stop, o.stops = true) ∧ stop.length ≤ 1 ∧ ∀ o ∈ skipped, o.isSkipped = true := by
  induction h with
  | nil => exact ⟨[], [], [], rfl, nofun, nofun, Nat.zero_le 1, nofun⟩
  | @goesOn o os ho _ ih =>
    obtain ⟨done, stop, skipped, rfl, hdone, hstop⟩ := ih
    exact ⟨o :: done, stop, skipped, rfl, List.forall_mem_cons.2 ⟨ho, hdone⟩, hstop⟩
  | @stops o os ho rest =>
    exact ⟨[], [o], os, rfl, nofun, by simpa using ho, Nat.le_refl 1, rest.isSkipped⟩
  | @skipped o os ho rest =>
    exact ⟨[], [], o :: os, rfl, nofun, nofun, Nat.zero_le 1,
      List.forall_mem_cons.2 ⟨ho, rest.isSkipped⟩⟩

/-- A step that is not performed stands behind an outcome that stops. -/
theorem exists_stops {earlier later : List StepOutcome} {step : Text}
    (h : Sequential true (earlier ++ .notPerformed step :: later)) :
    ∃ o ∈ earlier, o.stops = true := by
  induction earlier with
  | nil => cases h <;> contradiction
  | cons o earlier ih =>
    cases h with
    | goesOn _ rest =>
      obtain ⟨x, hx, hs⟩ := ih rest
      exact ⟨x, List.mem_cons_of_mem o hx, hs⟩
    | stops ho _ => exact ⟨o, List.mem_cons_self, ho⟩

end Sequential

/-! ### The outcomes of turns -/

/-- The outcomes that a journal reports. -/
def outcomesOf (journal : List (Entry W)) : List StepOutcome :=
  (eventsOf journal).filterMap Event.outcome?

@[simp] theorem outcomesOf_append (i j : List (Entry W)) :
    outcomesOf (i ++ j) = outcomesOf i ++ outcomesOf j := by
  rw [outcomesOf, eventsOf_append, List.filterMap_append]
  rfl

namespace Item

variable (s : Settings) (row : Option Row)

theorem outcomesOf_turn (i : Item W) (p : Progress W) :
    outcomesOf (i.turn s row p).journal = (i.result s row p).2.1.toList := by
  rw [outcomesOf, ← Trace.events_eq, events_turn]
  cases (i.result s row p).2.1 <;> rfl

/-- Turns report nothing but outcomes. -/
theorem eventsOf_turns (items : List (Item W)) (p : Progress W) :
    eventsOf (turns s row items p).journal =
      (outcomesOf (turns s row items p).journal).map .outcome := by
  induction items generalizing p with
  | nil => rfl
  | cons i items ih =>
    rw [turns_cons, eventsOf_append, outcomesOf_append, List.map_append, ← ih, outcomesOf_turn,
      ← Trace.events_eq, events_turn]

/-- A sequence is fine as long as nothing failed or was pending in it. -/
theorem fine_turns (items : List (Item W)) (p : Progress W) :
    (turns s row items p).progress.state.fine =
      (p.state.fine && (outcomesOf (turns s row items p).journal).all fun o => !o.stops) := by
  induction items generalizing p with
  | nil => exact (Bool.and_true _).symm
  | cons i items ih =>
    have hi : ((i.result s row p).2.1.bind StepOutcome.error?).isNone =
        (i.result s row p).2.1.toList.all fun o => !o.stops := by
      cases (i.result s row p).2.1 with
      | none => rfl
      | some o => simp [StepOutcome.isNone_error?]
    rw [turns_cons, outcomesOf_append, List.all_append, outcomesOf_turn, ← Bool.and_assoc, ← hi,
      ← fine_turn]
    exact ih _

variable {s row}

theorem goesOn_or_stops_outcomeOfStep (step : Text) (failure : Option Failure) :
    (outcomeOfStep step failure).goesOn = true ∨ (outcomeOfStep step failure).stops = true := by
  cases failure with
  | none => exact .inl rfl
  | some f => exact .inr rfl

/-- What is carried out is not reported as not performed. -/
theorem goesOn_or_stops_of_perform {i : Item W} {w : W} {o : StepOutcome}
    (h : (i.perform s row w).2.1 = some o) : o.goesOn = true ∨ o.stops = true := by
  cases i with
  | hook x =>
    rw [perform] at h
    split at h
    · cases h
    · obtain ⟨f, -, rfl⟩ := Option.map_eq_some_iff.1 h
      exact .inr rfl
  | matched step m =>
    rw [perform] at h
    split at h
    · obtain rfl := Option.some.inj h
      exact .inl rfl
    · split at h
      · obtain rfl := Option.some.inj h
        exact goesOn_or_stops_outcomeOfStep _ _
      · obtain rfl := Option.some.inj h
        exact goesOn_or_stops_outcomeOfStep _ _
  | pending step =>
    obtain rfl := Option.some.inj h
    exact .inr rfl
  | comment step =>
    obtain rfl := Option.some.inj h
    exact .inl rfl

end Item

/-! ### The outcomes of steps -/

/-- What an outcome says about its step: comments are those that begin with the mark of comments,
and a pending step is one that no candidate matches. -/
structure StepOutcome.Fits (k : Keywords) (registries : List (Registry W)) (o : StepOutcome) :
    Prop where
  comment : k.token .comment <+: Text.trimStart o.step ↔ o = .comment o.step
  pending : o = .pending o.step → ∀ r ∈ registries, ∀ c ∈ r.candidates,
    c.pattern.isMatch (r.keywords.withoutStartingWord o.step) = false

theorem Keywords.isComment_iff (k : Keywords) (step : Text) :
    k.isComment step = true ↔ k.token .comment <+: Text.trimStart step := by
  rw [isComment, Text.startsWith_iff]
  exact exists_congr fun _ => eq_comm

namespace StepOutcome

variable {k : Keywords} {registries : List (Registry W)} {o : StepOutcome}

theorem fits_comment {step : Text} (hc : k.isComment step = true) :
    (comment step).Fits k registries where
  comment := ⟨fun _ => rfl, fun _ => (k.isComment_iff step).1 hc⟩
  pending := nofun

theorem fits_of_not_comment (hc : k.isComment o.step = false) (ho : o ≠ .comment o.step)
    (hp : o = .pending o.step → Registry.findAcross? registries o.step = none) :
    o.Fits k registries where
  comment := by
    refine ⟨fun h => ?_, fun h => absurd h ho⟩
    exact absurd (hc.symm.trans ((k.isComment_iff o.step).2 h)) nofun
  pending := fun h => (Registry.findAcross?_eq_none_iff registries o.step).1 (hp h)

end StepOutcome

namespace Item

variable {s : Settings} {row : Option Row} {k : Keywords} {registries : List (Registry W)}
  {raw : Text} {p : Progress W} {o : StepOutcome}

theorem fits_of_canHave_ofStep (h : (ofStep k registries row raw).CanHave (some o)) :
    o.Fits k registries := by
  obtain ⟨hc, ho⟩ | ⟨hc, hm, ho⟩ | ⟨hc, m, hm, ho⟩ := ofStep_cases k registries row raw
  · rw [ho] at h
    cases h
    exact StepOutcome.fits_comment hc
  · rw [ho] at h
    cases h with
    | pending => exact StepOutcome.fits_of_not_comment hc nofun fun _ => hm
    | pendingNotPerformed => exact StepOutcome.fits_of_not_comment hc nofun nofun
  · rw [ho] at h
    cases h <;> exact StepOutcome.fits_of_not_comment hc nofun nofun

theorem goesOn_or_stops_of_result {i : Item W} (hp : p.state.fine = true)
    (h : (i.result s row p).2.1 = some o) : o.goesOn = true ∨ o.stops = true := by
  have hi : i.isCarriedOut p.state.fine = true := by
    rw [hp]
    cases i <;> rfl
  unfold result at h
  split at h
  · exact goesOn_or_stops_of_perform h
  · exact absurd h nofun

theorem isSkipped_of_result_ofStep (hp : p.state.fine = false)
    (h : ((ofStep k registries row raw).result s row p).2.1 = some o) : o.isSkipped = true := by
  have hr : ((ofStep k registries row raw).result s row p).2.1 =
      some (ofStep k registries row raw).outcomeSkipped := by
    obtain ⟨-, ho⟩ | ⟨-, -, ho⟩ | ⟨-, m, -, ho⟩ := ofStep_cases k registries row raw <;>
      simp [ho, result, isCarriedOut, admits, hp]
  obtain rfl := Option.some.inj (hr.symm.trans h)
  obtain ⟨-, ho⟩ | ⟨-, -, ho⟩ | ⟨-, m, -, ho⟩ := ofStep_cases k registries row raw <;>
    rw [ho] <;> rfl

/-- The outcomes of steps in their turns. -/
theorem outcomesOf_turns_steps (k : Keywords) (registries : List (Registry W)) (raws : List Text)
    (p : Progress W) :
    let os := outcomesOf (turns s row (raws.map (.ofStep k registries row)) p).journal
    Sequential p.state.fine os ∧ os.map StepOutcome.step = raws.map (Runner.stepText row) ∧
      ∀ o ∈ os, o.Fits k registries := by
  induction raws generalizing p with
  | nil => exact ⟨.nil, rfl, nofun⟩
  | cons raw raws ih =>
    let i : Item W := ofStep k registries row raw
    have hc : i.CanHave (i.result s row p).2.1 := canHave_result s row i p
    obtain ⟨o, ho, hstep⟩ := exists_of_canHave_ofStep hc
    rw [ho] at hc
    have hos : outcomesOf (turns s row ((raw :: raws).map (.ofStep k registries row)) p).journal =
        o :: outcomesOf
          (turns s row (raws.map (.ofStep k registries row))
            (i.turn s row p).progress).journal := by
      rw [List.map_cons, turns_cons, outcomesOf_append, outcomesOf_turn, ho]
      rfl
    have hf : (i.turn s row p).progress.state.fine = (p.state.fine && !o.stops) := by
      rw [fine_turn, ho, ← o.isNone_error?]
      rfl
    obtain ⟨hrest, hsteps, hfits⟩ := ih (i.turn s row p).progress
    rw [hf] at hrest
    rw [hos]
    refine ⟨?_, ?_, ?_⟩
    · cases hp : p.state.fine with
      | true =>
        rw [hp, Bool.true_and] at hrest
        cases hs : o.stops with
        | true =>
          rw [hs] at hrest
          exact .stops hs hrest
        | false =>
          rw [hs] at hrest
          have hgo := (goesOn_or_stops_of_result hp ho).resolve_right (by simp [hs])
          exact .goesOn hgo hrest
      | false =>
        rw [hp, Bool.false_and] at hrest
        exact .skipped (isSkipped_of_result_ofStep hp ho) hrest
    · rw [List.map_cons, hstep, hsteps, List.map_cons]
    · exact List.forall_mem_cons.2 ⟨fits_of_canHave_ofStep hc, hfits⟩

end Item

/-! ### The outcomes of a pass -/

namespace Runner

variable (r : Runner W)

/-- What the hooks before a pass, its steps and the hooks after it report. -/
structure PassOutcomes (steps : List Text) (row : Option Row)
    (before performed after : List StepOutcome) : Prop where
  /-- Hooks before the steps report their failures. -/
  setUp : HookOutcomes (r.registries.reverse.flatMap (·.hooksAt .beforeScenario))
    (before.map .outcome)
  /-- Each step has one outcome, with its text once the row is substituted. -/
  steps : performed.map StepOutcome.step = steps.map (stepText row)
  /-- Steps go well up to the first that fails or is pending. -/
  order : ∃ done stop skipped, performed = done ++ stop ++ skipped ∧
    (∀ o ∈ done, o.goesOn = true) ∧ (∀ o ∈ stop, o.stops = true) ∧ stop.length ≤ 1 ∧
      ∀ o ∈ skipped, o.isSkipped = true
  /-- A step is not performed only behind a failure or a pending step of the pass. -/
  reason : ∀ earlier step later, performed = earlier ++ .notPerformed step :: later →
    ∃ o ∈ before ++ earlier, o.stops = true
  fits : ∀ o ∈ performed, o.Fits r.settings.keywords r.registries
  /-- Hooks after the steps report their failures. -/
  tearDown : HookOutcomes (r.registries.flatMap (·.hooksAfterScenario)) (after.map .outcome)

/-- Whatever the hooks and the steps of a pass do, its events are the failures of its hooks and one
outcome for each step, in their order. -/
theorem outcomes_pass (steps : List Text) (row : Option Row) (p : Progress W) :
    ∃ before performed after : List StepOutcome,
      (r.pass steps row p).events = (before ++ performed ++ after).map .outcome ∧
        r.PassOutcomes steps row before performed after := by
  let hooksBefore := r.registries.reverse.flatMap (·.hooksAt .beforeScenario)
  let hooksAfter := r.registries.flatMap (·.hooksAfterScenario)
  let items : List (Item W) := steps.map (.ofStep r.settings.keywords r.registries row)
  let p₀ : Progress W := { p with state := p.state.startSequence }
  let t₀ := Item.turns r.settings row (hooksBefore.map .hook) p₀
  let t₁ := Item.turns r.settings row items t₀.progress
  let t₂ := Item.turns r.settings row (hooksAfter.map .hook) t₁.progress
  have hbefore : HookOutcomes hooksBefore (eventsOf t₀.journal) :=
    (Item.says_turns_hooks r.settings row hooksBefore p₀).2
  have hafter : HookOutcomes hooksAfter (eventsOf t₂.journal) :=
    (Item.says_turns_hooks r.settings row hooksAfter t₁.progress).2
  have hfine : t₀.progress.state.fine = (outcomesOf t₀.journal).all fun o => !o.stops :=
    (Item.fine_turns r.settings row (hooksBefore.map .hook) p₀).trans (Bool.true_and _)
  obtain ⟨hsequential, hsteps, hfits⟩ := Item.outcomesOf_turns_steps (s := r.settings)
    r.settings.keywords r.registries steps t₀.progress
  refine ⟨outcomesOf t₀.journal, outcomesOf t₁.journal, outcomesOf t₂.journal, ?_, ?_, hsteps,
    hsequential.exists_parts, ?_, hfits, ?_⟩
  · have ht : (r.pass steps row p).journal = t₀.journal ++ t₁.journal ++ t₂.journal := by
      have hp : r.pass steps row p = Item.turns r.settings row
        (hooksBefore.map .hook ++ items ++ hooksAfter.map .hook) p₀ := rfl
      rw [hp, Item.turns_append, Item.turns_append]
    rw [Trace.events_eq, ht, eventsOf_append, eventsOf_append, List.map_append, List.map_append,
      ← Item.eventsOf_turns, ← Item.eventsOf_turns, ← Item.eventsOf_turns]
  · rwa [← Item.eventsOf_turns]
  · intro earlier step later hp
    rw [hp] at hsequential
    cases hall : (outcomesOf t₀.journal).all fun o => !o.stops with
    | true =>
      rw [hfine, hall] at hsequential
      obtain ⟨o, ho, hs⟩ := hsequential.exists_stops
      exact ⟨o, List.mem_append_right _ ho, hs⟩
    | false =>
      -- a hook before the steps failed
      obtain ⟨o, ho, hs⟩ := List.all_eq_false.1 hall
      exact ⟨o, List.mem_append_left _ ho, by simpa using hs⟩
  · rwa [← Item.eventsOf_turns]

end Runner

end PlainStory
