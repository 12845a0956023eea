import PlainStory.Proofs.Run.Composition

/-!
# Runs side by side

Statements about two runs are proved of their parts: a relation of parts that goes over to what is
put together from them, `Runner.Congruence`, holds of the scenarios and stories of two runners that
have the same library and the same keywords.
-/

namespace PlainStory

variable {W : Type}

namespace Runner

/-- A relation of the parts of two runners that holds of the smallest ones and goes over to what is
put together from them. -/
structure Congruence (r r' : Runner W) (R : Play W → Play W → Prop) : Prop where
  skip : R .skip .skip
  andThen : ∀ {a a' b b'}, R a a' → R b b' → R (a.andThen b) (a'.andThen b')
  ensuring : ∀ {a a' b b'}, R a a' → R b b' → R (a.ensuring b) (a'.ensuring b')
  report : ∀ e : Event, e.outcome? = none → R (.report e) (.report e)
  request : ∀ path, R (.request path) (.request path)
  fail : ∀ e, R (.fail e) (.fail e)
  pass : ∀ steps row, R (r.pass steps row) (r'.pass steps row)
  storyHooks : ∀ place, R (r.storyHooks place) (r'.storyHooks place)

namespace Congruence

variable {r r' : Runner W} {R : Play W → Play W → Prop} (h : r.Congruence r' R)
include h

theorem inOrder_map {α : Type} {f g : α → Play W} (hfg : ∀ x, R (f x) (g x)) (xs : List α) :
    R (.inOrder (xs.map f)) (.inOrder (xs.map g)) := by
  induction xs with
  | nil => exact h.skip
  | cons x xs ih =>
    rw [List.map_cons, List.map_cons, Play.inOrder_cons, Play.inOrder_cons]
    exact h.andThen (hfg x) ih

theorem passes (s : Scenario) : R (r.passes s) (r'.passes s) := by
  unfold Runner.passes
  split
  · exact h.pass _ _
  · simp only [Play.inOrder_cons, Play.inOrder_nil, Play.andThen_skip]
    exact h.andThen (h.report _ rfl) (h.andThen
      (h.inOrder_map (fun row => h.andThen (h.report _ rfl) (h.pass _ _)) _) (h.report _ rfl))

variable {given given' : Text → Play W} (hg : ∀ path, R (given path) (given' path))
include hg

theorem scenario (s : Scenario) : R (r.scenario given s) (r'.scenario given' s) := by
  have hgs : R (givenStories given s.givenStories) (givenStories given' s.givenStories) := by
    unfold givenStories
    split
    · exact h.skip
    · simp only [Play.inOrder_cons, Play.inOrder_nil, Play.andThen_skip]
      exact h.andThen (h.report _ rfl) (h.inOrder_map hg _)
  simp only [Runner.scenario, Play.inOrder_cons, Play.inOrder_nil, Play.andThen_skip]
  exact h.andThen (h.report _ rfl) (h.ensuring (h.andThen hgs (h.passes s)) (h.report _ rfl))

theorem scenarios (ss : List Scenario) :
    R (.inOrder (ss.map (r.scenario given))) (.inOrder (ss.map (r'.scenario given'))) :=
  h.inOrder_map (h.scenario hg) ss

theorem story (s : Story) (embedded : Bool) :
    R (r.story given s embedded) (r'.story given' s embedded) := by
  simp only [Runner.story, Play.inOrder_cons, Play.inOrder_nil, Play.andThen_skip]
  exact h.andThen (h.report _ rfl) (h.andThen (h.storyHooks _) (h.ensuring
    (h.scenarios hg _) (h.andThen (h.storyHooks _) (h.report _ rfl))))

omit hg

/-- Given stories are related if the same stories are there and are read with the same keywords. -/
theorem givenStory (hlibrary : r'.settings.library = r.settings.library)
    (hkeywords : r'.settings.keywords = r.settings.keywords) (opened : List Text) (path : Text) :
    R (r.givenStory opened path) (r'.givenStory opened path) := by
  refine r.givenStory_induction
    (P := fun opened path a => R a (r'.givenStory opened path)) ?_ ?_ ?_ opened path
  · intro opened path ho
    rw [givenStory_eq, if_pos ho]
    exact h.andThen (h.request path) (h.fail _)
  · intro opened path ho hl
    rw [givenStory_eq, if_neg ho, hlibrary, hl]
    exact h.andThen (h.request path) (h.fail _)
  · intro opened path text ho hl hg
    have hread : r'.read path text = r.read path text := by rw [read, read, hkeywords]
    rw [r'.givenStory_of_found ho (hlibrary ▸ hl), hread]
    exact h.andThen (h.request path) (h.story hg _ _)

end Congruence

end Runner

end PlainStory
