import PlainStory.Proofs.Run.Stream

/-!
# The handlers that are called

Handlers leave no event unless they fail, so what they do is read off the calls in a journal. The
world that the items of a sequence leave is the effect of their calls and of nothing else.
`Runner.PassCalls` gives the rules by which a pass calls handlers: all hooks before it, its steps up
to the first that stops them, and the hooks after it that admit how it went. The main statement is
that these rules have one outcome, the calls of the pass.
-/

namespace PlainStory

variable {W : Type}

/-! ### Calls and their effect -/

/-- The calls that a journal tells of. -/
def callsOf (journal : List (Entry W)) : List (Entry W) := journal.filter Entry.isCall

@[simp] theorem callsOf_nil : callsOf ([] : List (Entry W)) = [] := rfl

@[simp] theorem callsOf_append (i j : List (Entry W)) : callsOf (i ++ j) = callsOf i ++ callsOf j :=
  List.filter_append ..

/-- The world after some calls, one after another. -/
def effectOf (calls : List (Entry W)) (w : W) : W := calls.foldl (fun w x => x.effect w) w

@[simp] theorem effectOf_nil (w : W) : effectOf [] w = w := rfl

@[simp] theorem effectOf_cons (x : Entry W) (calls : List (Entry W)) (w : W) :
    effectOf (x :: calls) w = effectOf calls (x.effect w) := rfl

@[simp] theorem effectOf_append (i j : List (Entry W)) (w : W) :
    effectOf (i ++ j) w = effectOf j (effectOf i w) := List.foldl_append ..

/-- Whether the handler that is called fails in a world. -/
def Entry.fails : Entry W → W → Bool
  | hookCalled h, w => (h.run w).1.isSome
  | stepCalled c context, w => (c.call context w).1.isSome
  | reported _, _ | requested _, _ | consulted _ _, _ => false

/-- Whether one of some calls fails, each in the world that those before it leave. -/
def anyFails : List (Entry W) → W → Bool
  | [], _ => false
  | x :: calls, w => x.fails w || anyFails calls (x.effect w)

/-! ### What turns do -/

namespace Item

variable {s : Settings} (row : Option Row)

/-- What a trace tells of handlers: the calls, the world they leave, and whether all went fine. -/
def handling (t : Trace W) : List (Entry W) × W × Bool :=
  (callsOf t.journal, t.progress.world, t.progress.state.fine)

theorem callsOf_turn (i : Item W) (p : Progress W) :
    callsOf (i.turn s row p).journal = (i.result s row p).1 := by
  have ho : ∀ o : Option StepOutcome,
      callsOf (o.toList.map fun o => (.reported (.outcome o) : Entry W)) = [] := by
    intro o
    cases o <;> rfl
  rw [turn_eq, callsOf_append, ho, List.append_nil]
  exact List.filter_eq_self.2 (isCall_of_mem_result s row i p)

/-- What a turn does, by what comes of the item. -/
theorem handling_turn (i : Item W) (p : Progress W) :
    handling (i.turn s row p) =
      ((i.result s row p).1, (i.result s row p).2.2,
        p.state.fine && ((i.result s row p).2.1.bind StepOutcome.error?).isNone) := by
  rw [handling, callsOf_turn, fine_turn, turn_eq]

/-- The turns behind the first go on from the world and the state that it leaves. -/
theorem exists_handling_turns_cons {i : Item W} {p : Progress W} {calls : List (Entry W)} {w : W}
    {fine : Bool} (hi : handling (i.turn s row p) = (calls, w, fine)) (items : List (Item W)) :
    ∃ q : Progress W, q.world = w ∧ q.state.fine = fine ∧
      handling (turns s row (i :: items) p) =
        (calls ++ (handling (turns s row items q)).1, (handling (turns s row items q)).2) := by
  refine ⟨(i.turn s row p).progress, congrArg (·.2.1) hi, congrArg (·.2.2) hi, ?_⟩
  have hc : callsOf (i.turn s row p).journal = calls := congrArg (·.1) hi
  rw [turns_cons, handling, callsOf_append, hc]
  rfl

theorem handling_turns_append (items others : List (Item W)) (p : Progress W) :
    handling (turns s row (items ++ others) p) =
      ((handling (turns s row items p)).1 ++
          (handling (turns s row others (turns s row items p).progress)).1,
        (handling (turns s row others (turns s row items p).progress)).2) := by
  rw [turns_append, handling, callsOf_append]
  rfl

/-! ### Single turns -/

theorem handling_turn_hook (hdry : s.dryRun = false) (h : Hook W) (p : Progress W) :
    handling ((hook h).turn s row p) =
      if h.place.upon.admits p.state.fine then
        ([.hookCalled h], (h.run p.world).2, p.state.fine && (h.run p.world).1.isNone)
      else ([], p.world, p.state.fine) := by
  have hr : (hook h).result s row p =
      if h.place.upon.admits p.state.fine then
        ([.hookCalled h], outcomeOfHook h.label (h.run p.world).1, (h.run p.world).2)
      else ([], none, p.world) := by
    simp [result, perform, hdry, isCarriedOut, admits, Hook.admits]
  rw [handling_turn, hr]
  split
  · cases (h.run p.world).1 <;> simp [outcomeOfHook, StepOutcome.error?]
  · simp

theorem handling_turn_comment (step : Text) (p : Progress W) :
    handling ((comment step).turn s row p) = ([], p.world, p.state.fine) := by
  have hr : (comment step).result s row p = ([], some (.comment step), p.world) := by
    cases hp : p.state.fine <;> simp [result, perform, isCarriedOut, admits, outcomeSkipped, hp]
  rw [handling_turn, hr]
  simp [StepOutcome.error?]

/-- A step that is pending, and any step behind the first that failed or was pending, calls nothing
and leaves that something happened. -/
theorem handling_turn_pending (step : Text) (p : Progress W) :
    handling ((pending step).turn s row p) = ([], p.world, false) := by
  cases hp : p.state.fine <;>
    simp [handling_turn, result, perform, isCarriedOut, admits, outcomeSkipped, hp,
      StepOutcome.error?]

theorem handling_turn_matched_of_not_fine (step : Text) (m : Match W) {p : Progress W}
    (hp : p.state.fine = false) :
    handling ((matched step m).turn s row p) = ([], p.world, false) := by
  simp [handling_turn, result, isCarriedOut, admits, hp]

theorem handling_turn_matched_of_error (hdry : s.dryRun = false) {step : Text} {m : Match W}
    {p : Progress W} (hp : p.state.fine = true) {e : InvalidParameter}
    (he : m.candidate.context? s.converters step m.values row = .error e) :
    handling ((matched step m).turn s row p) = ([], p.world, false) := by
  simp [handling_turn, result, perform, hdry, isCarriedOut, admits, hp, he, outcomeOfStep,
    StepOutcome.error?]

theorem handling_turn_matched_of_ok (hdry : s.dryRun = false) {step : Text} {m : Match W}
    {p : Progress W} (hp : p.state.fine = true) {context : Context}
    (hc : m.candidate.context? s.converters step m.values row = .ok context) :
    handling ((matched step m).turn s row p) =
      ([.stepCalled m.candidate context], (m.candidate.call context p.world).2,
        (m.candidate.call context p.world).1.isNone) := by
  have hr : (matched step m).result s row p =
      ([.stepCalled m.candidate context],
        some (outcomeOfStep step (m.candidate.call context p.world).1),
        (m.candidate.call context p.world).2) := by
    simp [result, perform, hdry, isCarriedOut, admits, hp, hc]
  rw [handling_turn, hr, hp]
  cases (m.candidate.call context p.world).1 <;> simp [outcomeOfStep, StepOutcome.error?]

end Item

/-! ### The rules -/

/-- Whether a hook runs, given whether something before it failed or was pending. -/
def Hook.RunsAfter (h : Hook W) (wrong : Bool) : Prop :=
  h.place.upon = .any ∨ h.place.upon = .success ∧ wrong = false ∨
    h.place.upon = .failure ∧ wrong = true

theorem Hook.runsAfter_iff (h : Hook W) (wrong : Bool) :
    h.RunsAfter wrong ↔ h.place.upon.admits (!wrong) = true := by
  unfold RunsAfter
  cases h.place.upon <;> simp [UponOutcome.admits]

namespace Runner

variable (r : Runner W)

/-- The handlers that steps call from a world on, and whether one of the steps stopped them: a step
that failed, or did not get as far as its handler. -/
inductive StepCalls (row : Option Row) : W → List Text → List (Entry W) → Bool → Prop where
  | nil {w} : StepCalls row w [] [] false
  | comment {w raw raws calls stopped}
    (hc : r.settings.keywords.isComment (stepText row raw) = true)
    (rest : StepCalls row w raws calls stopped) : StepCalls row w (raw :: raws) calls stopped
  | pending {w raw raws} (hc : r.settings.keywords.isComment (stepText row raw) = false)
    (hm : Registry.findAcross? r.registries (stepText row raw) = none) :
    StepCalls row w (raw :: raws) [] true
  | unconverted {w raw raws m e} (hc : r.settings.keywords.isComment (stepText row raw) = false)
    (hm : Registry.findAcross? r.registries (stepText row raw) = some m)
    (he : m.candidate.context? r.settings.converters (stepText row raw) m.values row = .error e) :
    StepCalls row w (raw :: raws) [] true
  | failed {w raw raws m context}
    (hc : r.settings.keywords.isComment (stepText row raw) = false)
    (hm : Registry.findAcross? r.registries (stepText row raw) = some m)
    (ha : m.candidate.context? r.settings.converters (stepText row raw) m.values row = .ok context)
    (hf : (m.candidate.call context w).1.isSome = true) :
    StepCalls row w (raw :: raws) [.stepCalled m.candidate context] true
  | succeeded {w raw raws m context calls stopped}
    (hc : r.settings.keywords.isComment (stepText row raw) = false)
    (hm : Registry.findAcross? r.registries (stepText row raw) = some m)
    (ha : m.candidate.context? r.settings.converters (stepText row raw) m.values row = .ok context)
    (hf : (m.candidate.call context w).1.isSome = false)
    (rest : StepCalls row (m.candidate.call context w).2 raws calls stopped) :
    StepCalls row w (raw :: raws) (.stepCalled m.candidate context :: calls) stopped

/-- The hooks after a scenario that are called from a world on, given whether a unit before them
failed or was pending. -/
inductive HookCalls : Bool → W → List (Hook W) → List (Entry W) → Prop where
  | nil {wrong w} : HookCalls wrong w [] []
  | called {wrong w h hooks calls} (hu : h.RunsAfter wrong)
    (rest : HookCalls (wrong || (h.run w).1.isSome) (h.run w).2 hooks calls) :
    HookCalls wrong w (h :: hooks) (.hookCalled h :: calls)
  | passedOver {wrong w h hooks calls} (hu : ¬ h.RunsAfter wrong)
    (rest : HookCalls wrong w hooks calls) : HookCalls wrong w (h :: hooks) calls

/-- The calls of all hooks before a scenario, those of the last registry first. -/
def setUpCalls : List (Entry W) :=
  (r.registries.reverse.flatMap (·.hooksAt .beforeScenario)).map .hookCalled

/-- The handlers that a pass calls from a world on. -/
inductive PassCalls (steps : List Text) (row : Option Row) (w : W) : List (Entry W) → Prop where
  | performed {performed after stopped} (hbefore : anyFails r.setUpCalls w = false)
    (hsteps : r.StepCalls row (effectOf r.setUpCalls w) steps performed stopped)
    (hafter : HookCalls stopped (effectOf (r.setUpCalls ++ performed) w)
      (r.registries.flatMap (·.hooksAfterScenario)) after) :
    PassCalls steps row w (r.setUpCalls ++ performed ++ after)
  | notPerformed {after} (hbefore : anyFails r.setUpCalls w = true)
    (hafter : HookCalls true (effectOf r.setUpCalls w)
      (r.registries.flatMap (·.hooksAfterScenario)) after) :
    PassCalls steps row w (r.setUpCalls ++ after)

variable {r}

/-! ### The rules have one outcome -/

theorem StepCalls.unique {row : Option Row} {w : W} {raws : List Text}
    {calls others : List (Entry W)} {stopped stopped' : Bool}
    (h : r.StepCalls row w raws calls stopped) (h' : r.StepCalls row w raws others stopped') :
    calls = others ∧ stopped = stopped' := by
  induction h generalizing others stopped' with
  | nil =>
    cases h'
    exact ⟨rfl, rfl⟩
  | comment hc _ ih =>
    cases h' with
    | comment _ rest => exact ih rest
    | _ => simp_all
  | pending hc hm => cases h' <;> simp_all
  | unconverted hc hm he => cases h' <;> simp_all
  | failed hc hm ha hf => cases h' <;> simp_all
  | succeeded hc hm ha hf _ ih =>
    cases h' with
    | succeeded _ hm' ha' _ rest =>
      obtain rfl := Option.some.inj (hm.symm.trans hm')
      obtain rfl := Except.ok.inj (ha.symm.trans ha')
      obtain ⟨rfl, rfl⟩ := ih rest
      exact ⟨rfl, rfl⟩
    | _ => simp_all

theorem HookCalls.unique {wrong : Bool} {w : W} {hooks : List (Hook W)}
    {calls others : List (Entry W)} (h : HookCalls wrong w hooks calls)
    (h' : HookCalls wrong w hooks others) : calls = others := by
  induction h generalizing others with
  | nil =>
    cases h'
    rfl
  | called hu _ ih =>
    cases h' with
    | called _ rest => rw [ih rest]
    | passedOver hu' _ => exact absurd hu hu'
  | passedOver hu _ ih =>
    cases h' with
    | called hu' _ => exact absurd hu' hu
    | passedOver _ rest => exact ih rest

theorem PassCalls.unique {steps : List Text} {row : Option Row} {w : W}
    {calls others : List (Entry W)} (h : r.PassCalls steps row w calls)
    (h' : r.PassCalls steps row w others) : calls = others := by
  cases h with
  | performed hbefore hsteps hafter =>
    cases h' with
    | performed _ hsteps' hafter' =>
      obtain ⟨rfl, rfl⟩ := hsteps.unique hsteps'
      rw [hafter.unique hafter']
    | notPerformed hbefore' _ => exact absurd (hbefore.symm.trans hbefore') nofun
  | notPerformed hbefore hafter =>
    cases h' with
    | performed hbefore' _ _ => exact absurd (hbefore.symm.trans hbefore') nofun
    | notPerformed _ hafter' => rw [hafter.unique hafter']

end Runner

/-! ### A pass follows the rules -/

namespace Item

variable {s : Settings} {row : Option Row}

theorem effectOf_result (i : Item W) (p : Progress W) :
    (i.result s row p).2.2 = effectOf (i.result s row p).1 p.world := by
  unfold result
  split
  · split
    · cases i with
      | hook h => cases hd : s.dryRun <;> simp [perform, hd, Entry.effect]
      | matched step m =>
        cases hd : s.dryRun with
        | true => simp [perform, hd]
        | false =>
          cases hc : m.candidate.context? s.converters step m.values row <;>
            simp [perform, hd, hc, Entry.effect]
      | pending step => rfl
      | comment step => rfl
    · rfl
  · rfl

/-- What turns leave of the world is the effect of their calls. -/
theorem effectOf_turns (items : List (Item W)) (p : Progress W) :
    (turns s row items p).progress.world =
      effectOf (callsOf (turns s row items p).journal) p.world := by
  induction items generalizing p with
  | nil => rfl
  | cons i items ih =>
    have hi : (i.turn s row p).progress.world =
        effectOf (callsOf (i.turn s row p).journal) p.world := by
      rw [callsOf_turn, ← effectOf_result, turn_eq]
    rw [turns_cons, callsOf_append, effectOf_append, ← hi]
    exact ih _

/-- Hooks that run in any case are all called, whatever fails among them. -/
theorem handling_turns_hooks (hdry : s.dryRun = false) {hooks : List (Hook W)}
    (hu : ∀ h ∈ hooks, h.place.upon = .any) (p : Progress W) :
    handling (turns s row (hooks.map .hook) p) =
      (hooks.map .hookCalled, effectOf (hooks.map .hookCalled) p.world,
        p.state.fine && !anyFails (hooks.map .hookCalled) p.world) := by
  induction hooks generalizing p with
  | nil => simp [turns, handling, Play.skip, anyFails]
  | cons h hooks ih =>
    have hh : handling ((hook h).turn s row p) =
        ([.hookCalled h], (h.run p.world).2, p.state.fine && (h.run p.world).1.isNone) := by
      rw [handling_turn_hook row hdry, hu h (by simp)]
      rfl
    obtain ⟨q, hw, hf, hq⟩ := exists_handling_turns_cons row hh (hooks.map .hook)
    rw [List.map_cons, hq, ih (fun x hx => hu x (by simp [hx])), hw, hf]
    simp only [List.map_cons, List.singleton_append, effectOf_cons, anyFails, Entry.effect,
      Entry.fails, Bool.not_or, Option.not_isSome, Bool.and_assoc]

/-- Behind a step that failed or was pending nothing is called. -/
theorem handling_turns_steps_of_not_fine (k : Keywords) (registries : List (Registry W))
    (raws : List Text) {p : Progress W} (hp : p.state.fine = false) :
    handling (turns s row (raws.map (.ofStep k registries row)) p) = ([], p.world, false) := by
  induction raws generalizing p with
  | nil => simp [turns, handling, Play.skip, hp]
  | cons raw raws ih =>
    have hi : handling ((ofStep k registries row raw).turn s row p) = ([], p.world, false) := by
      obtain ⟨-, ho⟩ | ⟨-, -, ho⟩ | ⟨-, m, -, ho⟩ := ofStep_cases k registries row raw
      · rw [ho, handling_turn_comment, hp]
      · rw [ho, handling_turn_pending]
      · rw [ho, handling_turn_matched_of_not_fine row _ m hp]
    obtain ⟨q, hw, hf, hq⟩ :=
      exists_handling_turns_cons row hi (raws.map (.ofStep k registries row))
    rw [List.map_cons, hq, ih hf, hw]
    rfl

/-- The calls of steps end with the step that stops them. -/
theorem handling_turns_steps_of_stop {k : Keywords} {registries : List (Registry W)} {raw : Text}
    {p : Progress W} {calls : List (Entry W)} {w : W}
    (hi : handling ((ofStep k registries row raw).turn s row p) = (calls, w, false))
    (raws : List Text) :
    handling (turns s row ((raw :: raws).map (.ofStep k registries row)) p) =
      (calls, w, false) := by
  obtain ⟨q, hw, hf, hq⟩ := exists_handling_turns_cons row hi (raws.map (.ofStep k registries row))
  rw [List.map_cons, hq, handling_turns_steps_of_not_fine k registries raws hf, hw, List.append_nil]

end Item

namespace Runner

variable {r : Runner W}

/-- The turns of steps from a fine state follow the rules for steps. -/
theorem stepCalls_turns (hdry : r.settings.dryRun = false) (row : Option Row) (raws : List Text)
    {p : Progress W} (hp : p.state.fine = true) :
    let t := Item.handling (Item.turns r.settings row
      (raws.map (.ofStep r.settings.keywords r.registries row)) p)
    r.StepCalls row p.world raws t.1 (!t.2.2) := by
  induction raws generalizing p with
  | nil =>
    have ht : Item.handling (Item.turns r.settings row [] p) = ([], p.world, true) := by
      rw [← hp]
      rfl
    rw [List.map_nil, ht]
    exact .nil
  | cons raw raws ih =>
    obtain ⟨hc, ho⟩ | ⟨hc, hm, ho⟩ | ⟨hc, m, hm, ho⟩ :=
      Item.ofStep_cases r.settings.keywords r.registries row raw
    · have hi := Item.handling_turn_comment (s := r.settings) row (stepText row raw) p
      obtain ⟨q, hw, hf, hq⟩ := Item.exists_handling_turns_cons row hi
        (raws.map (.ofStep r.settings.keywords r.registries row))
      rw [List.map_cons, ho, hq]
      exact .comment hc (hw ▸ ih (hf.trans hp))
    · have hi := Item.handling_turn_pending (s := r.settings) row (stepText row raw) p
      rw [← ho] at hi
      rw [Item.handling_turns_steps_of_stop hi]
      exact .pending hc hm
    · cases ha : m.candidate.context? r.settings.converters (stepText row raw) m.values row with
      | error e =>
        have hi := Item.handling_turn_matched_of_error row hdry hp ha
        rw [← ho] at hi
        rw [Item.handling_turns_steps_of_stop hi]
        exact .unconverted hc hm ha
      | ok context =>
        have hi := Item.handling_turn_matched_of_ok row hdry hp ha
        rw [← ho] at hi
        cases hx : (m.candidate.call context p.world).1 with
        | some f =>
          rw [hx] at hi
          rw [Item.handling_turns_steps_of_stop hi]
          exact .failed hc hm ha (by rw [hx]; rfl)
        | none =>
          rw [hx] at hi
          obtain ⟨q, hw, hf, hq⟩ := Item.exists_handling_turns_cons row hi
            (raws.map (.ofStep r.settings.keywords r.registries row))
          rw [List.map_cons, hq]
          exact .succeeded hc hm ha (by rw [hx]; rfl) (hw ▸ ih hf)

/-- The turns of hooks follow the rules for hooks after a scenario. -/
theorem hookCalls_turns {s : Settings} (hdry : s.dryRun = false) (row : Option Row)
    (hooks : List (Hook W)) (p : Progress W) :
    HookCalls (!p.state.fine) p.world hooks
      (Item.handling (Item.turns s row (hooks.map .hook) p)).1 := by
  induction hooks generalizing p with
  | nil => exact .nil
  | cons h hooks ih =>
    have hh := Item.handling_turn_hook row hdry h p
    have hu := h.runsAfter_iff (!p.state.fine)
    rw [Bool.not_not] at hu
    split at hh
    · next ha =>
      obtain ⟨q, hw, hf, hq⟩ := Item.exists_handling_turns_cons row hh (hooks.map .hook)
      rw [List.map_cons, hq]
      refine .called (hu.2 ha) ?_
      have hrest := ih q
      rw [hw, hf, Bool.not_and, Option.not_isNone] at hrest
      exact hrest
    · next ha =>
      obtain ⟨q, hw, hf, hq⟩ := Item.exists_handling_turns_cons row hh (hooks.map .hook)
      rw [List.map_cons, hq]
      refine .passedOver (mt hu.1 ha) ?_
      have hrest := ih q
      rw [hw, hf] at hrest
      exact hrest

theorem upon_of_mem_hooksAt {place : HookPlace} (hp : place.upon = .any)
    {registries : List (Registry W)} {h : Hook W}
    (hh : h ∈ registries.flatMap (·.hooksAt place)) : h.place.upon = .any := by
  obtain ⟨x, -, hx⟩ := List.mem_flatMap.1 hh
  have : h.place = place := by simpa using (List.mem_filter.1 hx).2
  rw [this, hp]

theorem passCalls_pass (hdry : r.settings.dryRun = false) (steps : List Text) (row : Option Row)
    (p : Progress W) : r.PassCalls steps row p.world (callsOf (r.pass steps row p).journal) := by
  let before : List (Item W) := (r.registries.reverse.flatMap (·.hooksAt .beforeScenario)).map .hook
  let performed : List (Item W) := steps.map (.ofStep r.settings.keywords r.registries row)
  let after : List (Item W) := (r.registries.flatMap (·.hooksAfterScenario)).map .hook
  let p₀ : Progress W := { p with state := p.state.startSequence }
  let p₁ := (Item.turns r.settings row before p₀).progress
  let p₂ := (Item.turns r.settings row performed p₁).progress
  have hbefore : Item.handling (Item.turns r.settings row before p₀) =
      (r.setUpCalls, effectOf r.setUpCalls p.world, !anyFails r.setUpCalls p.world) :=
    Item.handling_turns_hooks hdry (fun _ => upon_of_mem_hooksAt rfl) p₀
  have hw₁ : p₁.world = effectOf r.setUpCalls p.world := congrArg (·.2.1) hbefore
  have hf₁ : p₁.state.fine = !anyFails r.setUpCalls p.world := congrArg (·.2.2) hbefore
  have hw₂ : p₂.world =
      effectOf (Item.handling (Item.turns r.settings row performed p₁)).1 p₁.world :=
    Item.effectOf_turns performed p₁
  have hafter := hookCalls_turns hdry row (r.registries.flatMap (·.hooksAfterScenario)) p₂
  have hcalls : callsOf (r.pass steps row p).journal =
      r.setUpCalls ++ (Item.handling (Item.turns r.settings row performed p₁)).1 ++
        (Item.handling (Item.turns r.settings row after p₂)).1 := by
    have ht : callsOf (r.pass steps row p).journal =
        (Item.handling (Item.turns r.settings row (before ++ performed ++ after) p₀)).1 := rfl
    rw [ht, List.append_assoc, Item.handling_turns_append, Item.handling_turns_append, hbefore,
      List.append_assoc]
  rw [hcalls]
  cases hx : anyFails r.setUpCalls p.world with
  | true =>
    rw [hx] at hf₁
    have hsteps : Item.handling (Item.turns r.settings row performed p₁) = ([], p₁.world, false) :=
      Item.handling_turns_steps_of_not_fine _ _ _ hf₁
    have hf₂ : p₂.state.fine = false := congrArg (·.2.2) hsteps
    rw [hw₂, hsteps, hf₂, hw₁] at hafter
    rw [hsteps, List.append_nil]
    exact .notPerformed hx hafter
  | false =>
    rw [hx] at hf₁
    have hsteps := stepCalls_turns hdry row steps hf₁
    rw [hw₁] at hsteps
    rw [hw₂, hw₁, ← effectOf_append] at hafter
    exact .performed hx hsteps hafter

/-- The handlers that a pass calls are those that the rules give, and no others: all hooks before
it, whatever fails among them; if none failed its steps, comments apart, up to the first that fails,
is pending or has an argument that does not convert; and the hooks after it that admit how all of
that went. What it leaves of the world is the effect of these calls. -/
theorem calls_pass (hdry : r.settings.dryRun = false) (steps : List Text) (row : Option Row)
    (p : Progress W) :
    let t := r.pass steps row p
    (∀ calls, r.PassCalls steps row p.world calls ↔ calls = callsOf t.journal) ∧
      t.progress.world = effectOf (callsOf t.journal) p.world := by
  intro t
  have ht : r.PassCalls steps row p.world (callsOf t.journal) := passCalls_pass hdry steps row p
  refine ⟨fun calls => ⟨fun h => h.unique ht, ?_⟩, ?_⟩
  · rintro rfl
    exact ht
  · exact Item.effectOf_turns _ { p with state := p.state.startSequence }

/-- A step that fails stops the steps behind it and keeps the hook for success from running; a
comment calls nothing. -/
theorem calls_pass_of_failing_step :
    ∃ r : Runner (List Nat), r.settings.dryRun = false ∧
      let steps : List Text := ["Given a 1", "!-- a 1", "When a x", "Given a 1"]
      let t := r.pass steps none ⟨[], {}⟩
      (callsOf t.journal).length = 5 ∧ t.progress.world = [4, 3, 6, 6, 1] ∧
        (∀ calls, r.PassCalls steps none [] calls ↔ calls = callsOf t.journal) ∧
        t.progress.world = effectOf (callsOf t.journal) [] := by
  let step : List Nat → Context → HandlerResult × List Nat := fun w context =>
    (if context.raw? 0 = some "1".toList then .ok else .error "no", 6 :: w)
  let hook (place : HookPlace) (n : Nat) : Hook (List Nat) := ⟨place, fun w => (.ok, n :: w)⟩
  let registry : Registry (List Nat) :=
    { keywords := .english
      candidates := [⟨.precondition, ⟨"a $n", '$', [.char 'a', .blank, .slot "n"]⟩, 0, [], 0, step⟩]
      hooks := [hook .beforeScenario 1, hook (.afterScenario .success) 2,
        hook (.afterScenario .failure) 3, hook (.afterScenario .any) 4] }
  let r : Runner (List Nat) := { registries := [registry] }
  exact ⟨r, rfl, by decide +kernel, by decide +kernel, calls_pass (r := r) rfl _ none ⟨[], {}⟩⟩

end Runner

end PlainStory
