import PlainStory.Proofs.Run.Nesting

/-!
# The hooks of stories

Hooks that succeed leave no event, so whether a story was set up and torn down is read off the calls
in a journal. `Runner.StoryAt` has both where they belong for a single story; `Runner.Balanced`
counts the calls of a whole journal. The main statement is that every story that begins, in any run
that calls handlers, is set up and torn down once, by the hooks for stories of its kind and by no
others.
-/

namespace PlainStory

variable {W : Type}

/-! ### Calls at a place -/

/-- The hook that is called, if it is one at the place. -/
def Entry.hookAt? (place : HookPlace) : Entry W → Option (Hook W)
  | hookCalled h => if h.place = place then some h else none
  | _ => none

/-- The hooks at a place that a journal tells to be called, in the order of their calls. -/
def hooksCalledAt (place : HookPlace) (journal : List (Entry W)) : List (Hook W) :=
  journal.filterMap (Entry.hookAt? place)

/-- Whether an entry is the beginning of a story that is embedded or not. -/
def Entry.begins (embedded : Bool) : Entry W → Bool
  | reported (.beforeStory _ e) => e == embedded
  | _ => false

/-- How many stories of a kind begin. -/
def storiesBegun (embedded : Bool) (journal : List (Entry W)) : Nat :=
  journal.countP (Entry.begins embedded)

section HooksCalledAt

variable {place : HookPlace} {embedded : Bool}

@[simp] theorem hooksCalledAt_nil : hooksCalledAt place ([] : List (Entry W)) = [] := rfl

@[simp] theorem hooksCalledAt_append (i j : List (Entry W)) :
    hooksCalledAt place (i ++ j) = hooksCalledAt place i ++ hooksCalledAt place j :=
  List.filterMap_append

@[simp] theorem storiesBegun_append (i j : List (Entry W)) :
    storiesBegun embedded (i ++ j) = storiesBegun embedded i + storiesBegun embedded j :=
  List.countP_append ..

@[simp] theorem hooksCalledAt_reported (e : Event) (j : List (Entry W)) :
    hooksCalledAt place (.reported e :: j) = hooksCalledAt place j := rfl

theorem Entry.begins_of_isQuiet {x : Entry W} (hx : x.isQuiet = true) :
    x.begins embedded = false := by
  unfold begins
  split
  · cases hx
  · rfl

theorem storiesBegun_eq_zero_of_isOfSequence {j : List (Entry W)}
    (h : ∀ x ∈ j, x.isOfSequence = true) : storiesBegun embedded j = 0 := by
  refine List.countP_eq_zero.2 fun x hx => ?_
  rw [Entry.begins_of_isQuiet (Entry.isQuiet_of_isOfSequence (h x hx))]
  exact Bool.false_ne_true

/-- The hooks called at a place are found among the calls. -/
theorem hooksCalledAt_callsOf (j : List (Entry W)) :
    hooksCalledAt place (callsOf j) = hooksCalledAt place j := by
  unfold hooksCalledAt callsOf
  rw [List.filterMap_filter]
  refine List.filterMap_congr fun x _ => ?_
  cases x <;> rfl

end HooksCalledAt

namespace Runner

variable (r : Runner W)

/-- A journal that sets up and tears down each story of a kind that begins in it, and no others. -/
structure Balanced (embedded : Bool) (journal : List (Entry W)) : Prop where
  setUp : hooksCalledAt (.beforeStory embedded) journal =
    (List.replicate (storiesBegun embedded journal) (r.hooksAt (.beforeStory embedded))).flatten
  tearDown : hooksCalledAt (.afterStory embedded) journal =
    (List.replicate (storiesBegun embedded journal) (r.hooksAt (.afterStory embedded))).flatten

variable {r} {embedded : Bool}

theorem place_of_mem_hooksAt {place : HookPlace} {h : Hook W} (hh : h ∈ r.hooksAt place) :
    h.place = place := by
  obtain ⟨registry, -, hx⟩ := List.mem_flatMap.1 hh
  simpa using (List.mem_filter.1 hx).2

/-- A sequence of story hooks calls the hooks at its place and none at another. -/
theorem HookJournal.hooksCalledAt_eq (hdry : r.settings.dryRun = false) {place : HookPlace}
    {j : List (Entry W)} (h : r.HookJournal place j) (other : HookPlace) :
    hooksCalledAt other j = if other = place then r.hooksAt place else [] := by
  have hcalls : callsOf j = (r.hooksAt place).map .hookCalled := by
    rw [h.calls, hdry]
    rfl
  have hat : ∀ x ∈ r.hooksAt place,
      Entry.hookAt? other (.hookCalled x) = if place = other then some x else none := by
    intro x hx
    rw [Entry.hookAt?, place_of_mem_hooksAt hx]
  rw [← hooksCalledAt_callsOf, hcalls, hooksCalledAt, List.filterMap_map]
  by_cases heq : other = place
  · subst heq
    rw [if_pos rfl, List.filterMap_congr (g := some) fun x hx => ?_, List.filterMap_some]
    exact (hat x hx).trans (if_pos rfl)
  · rw [if_neg heq]
    refine List.filterMap_eq_nil_iff.2 fun x hx => ?_
    exact (hat x hx).trans (if_neg (Ne.symm heq))

theorem Balanced.append {i j : List (Entry W)} (hi : r.Balanced embedded i)
    (hj : r.Balanced embedded j) : r.Balanced embedded (i ++ j) where
  setUp := by
    rw [hooksCalledAt_append, hi.setUp, hj.setUp, storiesBegun_append, List.replicate_add,
      List.flatten_append]
  tearDown := by
    rw [hooksCalledAt_append, hi.tearDown, hj.tearDown, storiesBegun_append, List.replicate_add,
      List.flatten_append]

/-- An entry that neither begins a story nor is a call of a hook of stories adds nothing. -/
theorem balanced_singleton {x : Entry W} (hcalled : ∀ place, place.isOfStory = true →
    x.hookAt? place = none) (hbegins : x.begins embedded = false) : r.Balanced embedded [x] := by
  have hbegun : storiesBegun embedded [x] = 0 := List.countP_eq_zero.2 (by simp [hbegins])
  have hat : ∀ place, place.isOfStory = true → hooksCalledAt place [x] = [] := by
    intro place hp
    exact List.filterMap_cons_none (hcalled place hp)
  constructor
  · rw [hbegun, hat _ rfl]
    rfl
  · rw [hbegun, hat _ rfl]
    rfl

/-- Scenarios call no hooks of stories. -/
theorem balanced_of_isOfScenario {x : Entry W} (hx : x.isOfScenario = true) :
    r.Balanced embedded [x] := by
  refine balanced_singleton (fun place hp => ?_) ?_
  · cases x with
    | hookCalled h =>
      have hne : h.place ≠ place := by
        rintro rfl
        rw [Entry.isOfScenario, hp] at hx
        cases hx
      exact if_neg hne
    | _ => rfl
  · exact Entry.begins_of_isQuiet (Entry.isQuiet_of_isOfScenario hx)

/-- A story of another kind adds no calls, and one of the kind adds one of each hook. -/
theorem balanced_story (hdry : r.settings.dryRun = false) {s : Story} {kind : Bool}
    {setUp body tearDown : List (Entry W)} (before : r.HookJournal (.beforeStory kind) setUp)
    (inner : r.Balanced embedded body) (after : r.HookJournal (.afterStory kind) tearDown) :
    r.Balanced embedded (.reported (.beforeStory s kind) ::
      (setUp ++ body ++ tearDown ++ [.reported (.afterStory kind)])) := by
  let x : Entry W := .reported (.beforeStory s kind)
  let y : Entry W := .reported (.afterStory kind)
  have hcalled : ∀ place, hooksCalledAt place (x :: (setUp ++ body ++ tearDown ++ [y])) =
      hooksCalledAt place setUp ++ hooksCalledAt place body ++ hooksCalledAt place tearDown := by
    intro place
    simp [x, y]
  have hbegun : storiesBegun embedded (x :: (setUp ++ body ++ tearDown ++ [y])) =
      storiesBegun embedded body + if kind = embedded then 1 else 0 := by
    have hsetUp : storiesBegun embedded setUp = 0 :=
      storiesBegun_eq_zero_of_isOfSequence before.isOfSequence
    have htearDown : storiesBegun embedded tearDown = 0 :=
      storiesBegun_eq_zero_of_isOfSequence after.isOfSequence
    have hy : storiesBegun embedded [y] = 0 := rfl
    rw [storiesBegun, List.countP_cons, ← storiesBegun, storiesBegun_append, storiesBegun_append,
      storiesBegun_append, hsetUp, htearDown, hy, Nat.zero_add]
    simp [x, Entry.begins]
  have hsetUp := before.hooksCalledAt_eq hdry
  have htearDown := after.hooksCalledAt_eq hdry
  by_cases hk : kind = embedded
  · subst hk
    rw [if_pos rfl] at hbegun
    constructor
    · rw [hcalled, hbegun, inner.setUp, hsetUp, htearDown, if_pos rfl, if_neg nofun,
        List.append_nil, List.replicate_succ, List.flatten_cons]
    · rw [hcalled, hbegun, inner.tearDown, hsetUp, htearDown, if_neg nofun, if_pos rfl,
        List.nil_append, List.replicate_succ', List.flatten_append, List.flatten_singleton]
  · have hbefore : HookPlace.beforeStory embedded ≠ .beforeStory kind :=
      fun h => hk (HookPlace.beforeStory.inj h).symm
    have hafter : HookPlace.afterStory embedded ≠ .afterStory kind :=
      fun h => hk (HookPlace.afterStory.inj h).symm
    rw [if_neg hk] at hbegun
    constructor
    · rw [hcalled, hbegun, inner.setUp, hsetUp, htearDown, if_neg hbefore, if_neg nofun,
        List.nil_append, List.append_nil, Nat.add_zero]
    · rw [hcalled, hbegun, inner.tearDown, hsetUp, htearDown, if_neg nofun, if_neg hafter,
        List.nil_append, List.append_nil, Nat.add_zero]

/-- Within a story every story is set up and torn down. -/
theorem InnerJournal.balanced (hdry : r.settings.dryRun = false) {opened : List Text}
    {j : List (Entry W)} (h : r.InnerJournal opened j) : r.Balanced embedded j := by
  induction h with
  | nil => exact ⟨rfl, rfl⟩
  | entry hx _ ih => exact (balanced_of_isOfScenario hx).append ih
  | refused _ _ ih => exact (balanced_singleton (fun _ _ => rfl) rfl).append ih
  | @story opened path text setUp body tearDown journal _ _ before _ after _ ihInner ihRest =>
    have hrequest : r.Balanced embedded [.requested path] := balanced_singleton (fun _ _ => rfl) rfl
    have hstory := balanced_story (s := r.read path text) hdry before ihInner after
    have := hrequest.append (hstory.append ihRest)
    simpa using this

theorem StoryJournal.balanced (hdry : r.settings.dryRun = false) {opened : List Text} {s : Story}
    {kind : Bool} {j : List (Entry W)} (h : r.StoryJournal opened s kind j) :
    r.Balanced embedded j := by
  obtain ⟨before, inner, after⟩ := h
  exact balanced_story hdry before (inner.balanced hdry) after

theorem balanced_run (hdry : r.settings.dryRun = false) (embedded : Bool) (s : Story)
    (p : Progress W) : r.Balanced embedded (r.run s p).journal := by
  have h : r.Balanced embedded (r.performance s p).journal :=
    (r.storyJournal_performance s p).balanced hdry
  cases hf : (r.performance s p).fatal with
  | some e => rwa [r.run_of_some hf]
  | none =>
    rw [r.run_of_none hf]
    exact h.append (balanced_singleton (fun _ _ => rfl) rfl)

/-- A given story that begins when it is asked for is not open, and it is registered. -/
theorem StoryAt.of_requested {top s : Story} {embedded : Bool} {past future : List (Entry W)}
    {path : Text} (h : r.StoryAt top (past ++ [.requested path]) s embedded future) :
    path ∉ openPaths past ∧ r.settings.library.get? path ≠ none := by
  obtain ⟨asked, -, -, -⟩ := h
  cases embedded with
  | false =>
    have hnil : past ++ [.requested path] = [] := asked.1
    simp at hnil
  | true =>
    obtain ⟨before, text, hpast, ho, hl, -⟩ := asked
    obtain ⟨rfl, hrequest⟩ := List.append_inj' hpast rfl
    obtain rfl : path = s.path := by simpa using hrequest
    exact ⟨ho, by rw [hl]; exact nofun⟩

/-- In every run that calls handlers, each story that begins is followed by the calls of all hooks
before stories of its kind, its scenarios, the calls of all hooks after stories of its kind, and its
end. No other hooks of stories are called: there are as many calls of them as stories of their kind
begin. A given story that is open or is not registered does not begin. -/
theorem storyHooks_run (hdry : r.settings.dryRun = false) (s : Story) (p : Progress W) :
    let t := r.run s p
    (∀ past s' embedded future,
        t.journal = past ++ .reported (.beforeStory s' embedded) :: future →
        r.StoryAt s past s' embedded future) ∧
      (∀ embedded, r.Balanced embedded t.journal) ∧
      ∀ past path future, t.journal = past ++ .requested path :: future →
        path ∈ openPaths past ∨ r.settings.library.get? path = none →
        ∀ s' embedded later, future ≠ .reported (.beforeStory s' embedded) :: later := by
  intro t
  have hstory : ∀ past s' embedded future,
      t.journal = past ++ .reported (.beforeStory s' embedded) :: future →
      r.StoryAt s past s' embedded future := by
    intro past s' embedded future h
    have := r.throughout_orderly_run s p past _ future h
    rwa [List.append_nil] at this
  refine ⟨hstory, fun embedded => balanced_run hdry embedded s p, ?_⟩
  rintro past path future h hr s' embedded later rfl
  rw [List.append_cons] at h
  obtain ⟨ho, hl⟩ := (hstory _ s' embedded later h).of_requested
  exact hr.elim ho hl

/-- A hook before given stories fails, and one of two given stories asks for one that is missing;
both are set up and torn down, and so is the story that asks for them. -/
theorem storyHooks_run_of_missing_given_story :
    ∃ (r : Runner (List Nat)) (s : Story), r.settings.dryRun = false ∧
      let t := r.run s ⟨[], {}⟩
      t.fatal = some (.load (.notFound "c")) ∧ t.progress.world = [4, 3, 5, 2, 3, 5, 2, 1] ∧
        storiesBegun true t.journal = 2 ∧
        (∀ past s' embedded future,
          t.journal = past ++ .reported (.beforeStory s' embedded) :: future →
          r.StoryAt s past s' embedded future) ∧
        (∀ embedded, r.Balanced embedded t.journal) ∧
        ∀ past path future, t.journal = past ++ .requested path :: future →
          path ∈ openPaths past ∨ r.settings.library.get? path = none →
          ∀ s' embedded later, future ≠ .reported (.beforeStory s' embedded) :: later := by
  let hook (place : HookPlace) (n : Nat) (result : HandlerResult) : Hook (List Nat) :=
    ⟨place, fun w => (result, n :: w)⟩
  let first : Registry (List Nat) :=
    { keywords := .english
      candidates := []
      hooks := [hook (.beforeStory false) 1 .ok, hook (.beforeStory true) 2 (.error "no"),
        hook (.afterStory true) 3 .ok, hook (.afterStory false) 4 .ok] }
  let second : Registry (List Nat) :=
    { keywords := .english, candidates := [], hooks := [hook (.beforeStory true) 5 .ok] }
  let library : Library := .ofPairs [("a", "Scenario: x"), ("b", "Scenario: y\nGivenStories: c")]
  let r : Runner (List Nat) := { settings := { library := library }, registries := [first, second] }
  let s : Story := r.read "top" "Scenario: z\nGivenStories: a, b"
  have hrun : r.run s = r.runUpTo (fun _ _ => .skip) 3 s := (r.runUpTo_eq _ s).symm
  have hfatal : (r.run s ⟨[], {}⟩).fatal = some (.load (.notFound "c")) := by
    rw [hrun]
    decide +kernel
  have hworld : (r.run s ⟨[], {}⟩).progress.world = [4, 3, 5, 2, 3, 5, 2, 1] := by
    rw [hrun]
    decide +kernel
  have hbegun : storiesBegun true (r.run s ⟨[], {}⟩).journal = 2 := by
    rw [hrun]
    decide +kernel
  exact ⟨r, s, rfl, hfatal, hworld, hbegun, storyHooks_run (r := r) rfl s ⟨[], {}⟩⟩

end Runner

end PlainStory
