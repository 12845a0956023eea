import PlainStory.Proofs.Run.Nesting
import PlainStory.Proofs.Run.Parallel

/-!
# The confinement of failures

Every sequence starts fine, and only the verdict looks at the outstanding error, so what went wrong
before a story does not show in it. The main statement is that an embedded story does the same from
any two states, and that a given story does what it does when it is run by itself, as long as no given
story ends it and there are no hooks of stories.
-/

namespace PlainStory

variable {W : Type}

/-! ### From any two states -/

/-- Two traces that differ in nothing but the state they leave. -/
structure Trace.Alike (t u : Trace W) : Prop where
  journal : t.journal = u.journal
  world : t.progress.world = u.progress.world
  fatal : t.fatal = u.fatal

/-- Two parts that do the same from any two states. -/
def Play.Confined (a b : Play W) : Prop := ∀ p p', p.world = p'.world → (a p).Alike (b p')

namespace Item

variable (s : Settings) (row : Option Row)

/-- Whether a sequence went fine so far is all of the state that its items see. -/
theorem turns_alike (items : List (Item W)) {p p' : Progress W} (hw : p.world = p'.world)
    (hf : p.state.fine = p'.state.fine) :
    (turns s row items p).Alike (turns s row items p') := by
  induction items generalizing p p' with
  | nil => exact ⟨rfl, hw, rfl⟩
  | cons i items ih =>
    have hr : i.result s row p = i.result s row p' := by
      unfold result
      rw [hw, hf]
    have hj : (i.turn s row p).journal = (i.turn s row p').journal := by
      rw [turn_eq, turn_eq, hr]
    have hworld : (i.turn s row p).progress.world = (i.turn s row p').progress.world := by
      rw [turn_eq, turn_eq, hr]
    have hfine : (i.turn s row p).progress.state.fine = (i.turn s row p').progress.state.fine := by
      rw [fine_turn, fine_turn, hr, hf]
    have hrest := ih hworld hfine
    rw [turns_cons, turns_cons]
    exact ⟨congrArg₂ _ hj hrest.journal, hrest.world, hrest.fatal⟩

theorem confined_sequence (items : List (Item W)) :
    (sequence s row items).Confined (sequence s row items) :=
  fun _ _ hw => turns_alike s row items hw rfl

end Item

namespace Runner

variable (r : Runner W)

theorem congruence_confined : r.Congruence r Play.Confined where
  skip := fun _ _ hw => ⟨rfl, hw, rfl⟩
  andThen := by
    intro a a' b b' ha hb p p' hw
    have h := ha p p' hw
    cases hf : (a p).fatal with
    | some e =>
      rw [Play.andThen_of_some hf, Play.andThen_of_some (h.fatal.symm.trans hf)]
      exact h
    | none =>
      have hrest := hb _ _ h.world
      rw [Play.andThen_of_none hf, Play.andThen_of_none (h.fatal.symm.trans hf)]
      exact ⟨congrArg₂ _ h.journal hrest.journal, hrest.world, hrest.fatal⟩
  ensuring := by
    intro a a' b b' ha hb p p' hw
    have h := ha p p' hw
    have hrest := hb _ _ h.world
    exact ⟨congrArg₂ _ h.journal hrest.journal, hrest.world, congrArg₂ Option.or h.fatal hrest.fatal⟩
  report := fun _ _ _ _ hw => ⟨rfl, hw, rfl⟩
  request := fun _ _ _ hw => ⟨rfl, hw, rfl⟩
  fail := fun _ _ _ hw => ⟨rfl, hw, rfl⟩
  pass := fun _ _ => Item.confined_sequence _ _ _
  storyHooks := fun _ => Item.confined_sequence _ _ _

theorem confined_givenStory (opened : List Text) (path : Text) :
    (r.givenStory opened path).Confined (r.givenStory opened path) :=
  r.congruence_confined.givenStory rfl rfl opened path

/-! ### Within fewer open stories -/

/-- The second part does what the first one does whenever that one comes to its end. -/
def FollowedBy (a b : Play W) : Prop := ∀ p, (a p).fatal = none → b p = a p

theorem congruence_followedBy : r.Congruence r FollowedBy where
  skip := fun _ _ => rfl
  andThen := by
    intro a a' b b' ha hb p hf
    cases hfa : (a p).fatal with
    | some e =>
      rw [Play.andThen_of_some hfa, hfa] at hf
      exact absurd hf nofun
    | none =>
      have h := ha p hfa
      rw [Play.andThen_of_none hfa] at hf ⊢
      rw [Play.andThen_of_none (by rw [h, hfa]), h, hb _ hf]
  ensuring := by
    intro a a' b b' ha hb p hf
    obtain ⟨hfa, hfb⟩ := Option.or_eq_none_iff.1 hf
    unfold Play.ensuring
    dsimp only
    rw [ha p hfa, hb _ hfb]
  report := fun _ _ _ _ => rfl
  request := fun _ _ _ => rfl
  fail := fun _ _ _ => rfl
  pass := fun _ _ _ _ => rfl
  storyHooks := fun _ _ _ => rfl

/-- A given story that comes to its end does the same while fewer stories are open. -/
theorem followedBy_givenStory {opened fewer : List Text} (hsub : fewer ⊆ opened) (path : Text) :
    FollowedBy (r.givenStory opened path) (r.givenStory fewer path) := by
  refine r.givenStory_induction
    (P := fun opened path a => ∀ fewer, fewer ⊆ opened → FollowedBy a (r.givenStory fewer path))
    ?_ ?_ ?_ opened path fewer hsub
  · intro opened path _ fewer _ p hf
    exact absurd hf nofun
  · intro opened path _ _ fewer _ p hf
    exact absurd hf nofun
  · intro opened path text ho hl ih fewer hsub
    rw [r.givenStory_of_found (fun h => ho (hsub h)) hl]
    exact r.congruence_followedBy.andThen (r.congruence_followedBy.request path)
      (r.congruence_followedBy.story
        (fun q => ih q (path :: fewer) (List.cons_subset_cons path hsub)) _ _)

/-! ### Without hooks of stories -/

variable {r} (hhooks : ∀ registry ∈ r.registries, ∀ h ∈ registry.hooks, h.place.isOfStory = false)
include hhooks

theorem storyHooks_eq_of_isOfStory (place : HookPlace) (hp : place.isOfStory = true)
    (p : Progress W) :
    r.storyHooks place p = ⟨[], { p with state := p.state.startSequence }, none⟩ := by
  have hnone : r.registries.flatMap (·.hooksAt place) = [] := by
    refine List.flatMap_eq_nil_iff.2 fun registry hr => List.filter_eq_nil_iff.2 fun h hh => ?_
    rintro hplace
    rw [← of_decide_eq_true hplace, hhooks registry hr h hh] at hp
    cases hp
  rw [storyHooks, hnone]
  rfl

/-- Without hooks, a story is its scenarios between its beginning and its end. -/
theorem story_eq_scenarios (given : Text → Play W) (s : Story) (embedded : Bool) (p : Progress W) :
    let t := r.story given s embedded p
    let u := Play.inOrder (s.scenarios.map (r.scenario given))
      { p with state := p.state.startSequence }
    t.events = .beforeStory s embedded :: (u.events ++ [.afterStory embedded]) ∧
      t.progress.world = u.progress.world ∧ t.fatal = u.fatal := by
  intro t u
  have hbefore := storyHooks_eq_of_isOfStory hhooks (.beforeStory embedded) rfl
  have hafter := storyHooks_eq_of_isOfStory hhooks (.afterStory embedded) rfl
  have ht : t = ⟨.reported (.beforeStory s embedded) ::
        (u.journal ++ [.reported (.afterStory embedded)]),
      { u.progress with state := u.progress.state.startSequence }, u.fatal⟩ := by
    simp only [t, u, story, Play.inOrder_cons, Play.inOrder_nil, Play.andThen_skip]
    simp [Play.andThen, Play.ensuring, Play.report, hbefore, hafter]
  rw [ht]
  refine ⟨?_, rfl, rfl⟩
  rw [Trace.events_eq, eventsOf_reported, eventsOf_append]
  rfl

/-- Without hooks, an embedded story that comes to its end does within its bounds what it does when it
is run by itself. -/
theorem exists_events_eq {opened : List Text} {s : Story} {w : W} {st : RunState}
    (hf : (r.embedded opened s ⟨w, st⟩).fatal = none) (st' : RunState) :
    let t := r.embedded opened s ⟨w, st⟩
    let u := r.performance s ⟨w, st'⟩
    ∃ inner, t.events = .beforeStory s true :: (inner ++ [.afterStory true]) ∧
      u.events = .beforeStory s false :: (inner ++ [.afterStory false]) ∧
      t.progress.world = u.progress.world := by
  intro t u
  let body (opened : List Text) : Play W :=
    .inOrder (s.scenarios.map (r.scenario (r.givenStory (s.path :: opened))))
  obtain ⟨htEvents, htWorld, htFatal⟩ :=
    story_eq_scenarios hhooks (r.givenStory (s.path :: opened)) s true ⟨w, st⟩
  obtain ⟨huEvents, huWorld, -⟩ :=
    story_eq_scenarios hhooks (r.givenStory [s.path]) s false ⟨w, .initial⟩
  have hfollowed : body [] ⟨w, st.startSequence⟩ = body opened ⟨w, st.startSequence⟩ :=
    r.congruence_followedBy.scenarios (fun path => r.followedBy_givenStory
      (List.cons_subset_cons s.path (List.nil_subset opened)) path) s.scenarios _
      (htFatal.symm.trans hf)
  have halike : (body [] ⟨w, RunState.initial.startSequence⟩).Alike
      (body [] ⟨w, st.startSequence⟩) :=
    r.congruence_confined.scenarios (r.confined_givenStory [s.path]) s.scenarios _ _ rfl
  rw [hfollowed] at halike
  have hinner := congrArg eventsOf halike.journal
  refine ⟨(body opened ⟨w, st.startSequence⟩).events, htEvents, ?_, ?_⟩
  · rw [Trace.events_eq (body opened _), ← hinner]
    exact huEvents
  · exact htWorld.trans (halike.world.symm.trans huWorld.symm)

omit hhooks

/-- An embedded story does the same from any two states: its journal, the world it leaves and the
error that ends it do not depend on what failed or was pending before it. Without hooks of stories, a
given story that comes to its end reports what it reports when it is run by itself, except that it
begins and ends as an embedded one, and it does the same to the world. -/
theorem confined_story (opened : List Text) (w : W) :
    (∀ s st st',
      let t := r.embedded opened s ⟨w, st⟩
      let u := r.embedded opened s ⟨w, st'⟩
      t.journal = u.journal ∧ t.events = u.events ∧ t.progress.world = u.progress.world ∧
        t.fatal = u.fatal) ∧
      ((∀ registry ∈ r.registries, ∀ h ∈ registry.hooks, h.place.isOfStory = false) →
        ∀ path text st st', r.settings.library.get? path = some text →
          let s := r.read path text
          let t := r.givenStory opened path ⟨w, st⟩
          let u := r.run s ⟨w, st'⟩
          t.fatal = none →
          ∃ inner, t.events = .beforeStory s true :: (inner ++ [.afterStory true]) ∧
            u.events = .beforeStory s false :: (inner ++ [.afterStory false]) ∧
            t.progress.world = u.progress.world) := by
  refine ⟨?_, ?_⟩
  · intro s st st' t u
    have h : (r.embedded opened s).Confined (r.embedded opened s) :=
      r.congruence_confined.story (r.confined_givenStory (s.path :: opened)) s true
    have halike : t.Alike u := h ⟨w, st⟩ ⟨w, st'⟩ rfl
    exact ⟨halike.journal, congrArg eventsOf halike.journal, halike.world, halike.fatal⟩
  · intro hhooks path text st st' hl s t u hf
    have ho : path ∉ opened := by
      intro ho
      have ht : t.fatal = some (.recursive path) := by
        simp only [t]
        rw [givenStory_eq, if_pos ho]
        rfl
      exact absurd (ht.symm.trans hf) nofun
    have ht : t = (Play.request path).andThen (r.embedded opened s) ⟨w, st⟩ :=
      congrFun (r.givenStory_of_found ho hl) _
    rw [ht] at hf ⊢
    obtain ⟨inner, htEvents, huEvents, hworld⟩ := exists_events_eq hhooks hf st'
    refine ⟨inner, htEvents, ?_, ?_⟩
    · exact (r.events_run s _).trans huEvents
    · rw [r.progress_run]
      exact hworld

/-- A given story fails after one that it gives itself is pending. It does the same behind a failure
and when it is run by itself, where its failure decides the run. -/
theorem confined_story_of_failing_given_story :
    ∃ (r : Runner (List Text)) (path text : Text),
      (∀ registry ∈ r.registries, ∀ h ∈ registry.hooks, h.place.isOfStory = false) ∧
        r.settings.library.get? path = some text ∧
        let s := r.read path text
        let t := r.givenStory ["top"] path ⟨[], false, some (.pending "x")⟩
        let u := r.run s ⟨[], .initial⟩
        t.fatal = none ∧ u.fatal = some (.step (.failed (.invocation "Given a 1" "no"))) ∧
          u.progress.world = [("1" : Text), "3"] ∧
          ∃ inner, t.events = .beforeStory s true :: (inner ++ [.afterStory true]) ∧
            u.events = .beforeStory s false :: (inner ++ [.afterStory false]) ∧
            t.progress.world = u.progress.world := by
  let step : List Text → Context → HandlerResult × List Text := fun w context =>
    (if context.raw? 0 = some "1".toList then .error "no" else .ok, (context.raw? 0).toList ++ w)
  let registry : Registry (List Text) :=
    { keywords := .english
      candidates := [⟨.precondition, ⟨"a $n", '$', [.char 'a', .blank, .slot "n"]⟩, 0, [], 0, step⟩]
      hooks := [] }
  let text : Text := "Scenario: x\nGivenStories: h\nGiven a 1\nGiven a 2"
  let library : Library := .ofPairs [("g", text), ("h", "Scenario: y\nGiven a 3\nThen nothing")]
  let r : Runner (List Text) := { settings := { library := library }, registries := [registry] }
  have hl : r.settings.library.get? "g" = some text := by decide +kernel
  have hgiven : r.givenStory ["top"] "g" = r.givenStoryUpTo (fun _ _ => .skip) 3 ["top"] "g" :=
    (r.givenStoryUpTo_eq _ (by decide +kernel) _).symm
  have hrun : r.run (r.read "g" text) = r.runUpTo (fun _ _ => .skip) 3 (r.read "g" text) :=
    (r.runUpTo_eq _ _).symm
  have ht : (r.givenStory ["top"] "g" ⟨[], false, some (.pending "x")⟩).fatal = none := by
    rw [hgiven]
    decide +kernel
  have hu : (r.run (r.read "g" text) ⟨[], .initial⟩).fatal =
      some (.step (.failed (.invocation "Given a 1" "no"))) := by
    rw [hrun]
    decide +kernel
  have hworld : (r.run (r.read "g" text) ⟨[], .initial⟩).progress.world = [("1" : Text), "3"] := by
    rw [hrun]
    decide +kernel
  have hhooks : ∀ registry ∈ r.registries, ∀ h ∈ registry.hooks, h.place.isOfStory = false := by
    simp [r, registry]
  exact ⟨r, "g", text, hhooks, hl, ht, hu, hworld,
    (confined_story ["top"] []).2 hhooks "g" text _ _ hl ht⟩

end Runner

end PlainStory
