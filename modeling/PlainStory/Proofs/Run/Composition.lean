import PlainStory.Proofs.Run.Sequence
import PlainStory.Run.Runner

/-!
# What runs are put together from

Given stories are reached by `Runner.givenStory_induction`, which follows the stories that are open.
A property that goes over from parts to what is put together from them holds of scenarios, stories
and given stories: `Runner.Compositional` is for what happens within a story, `Runner.Hereditary` also
for its beginning and its end.
-/

namespace PlainStory

variable {W : Type}

namespace Runner

variable (r : Runner W)

/-! ### Given stories -/

/-- A given story is asked for, refused if it is open or not there, and else run. -/
theorem givenStory_eq (opened : List Text) (path : Text) :
    r.givenStory opened path =
      (Play.request path).andThen
        (if path ∈ opened then .fail (.recursive path)
        else
          match r.settings.library.get? path with
          | none => .fail (.load (.notFound path))
          | some text => r.story (r.givenStory (path :: opened)) (r.read path text) true) := by
  funext p
  rw [givenStory]
  split
  · simp [Play.andThen, Play.request, Play.fail]
  · split
    · next hl => simp [hl, Play.andThen, Play.request, Play.fail]
    · next text hl => simp [hl, Play.andThen, Play.request]

/-- What holds of the two ways to refuse a given story, and of a story whenever it holds of those
within it, holds of every given story. -/
theorem givenStory_induction {P : List Text → Text → Play W → Prop}
    (recursive : ∀ opened path, path ∈ opened →
      P opened path ((Play.request path).andThen (.fail (.recursive path))))
    (missing : ∀ opened path, path ∉ opened → r.settings.library.get? path = none →
      P opened path ((Play.request path).andThen (.fail (.load (.notFound path)))))
    (found : ∀ opened path text, path ∉ opened → r.settings.library.get? path = some text →
      (∀ q, P (path :: opened) q (r.givenStory (path :: opened) q)) →
      P opened path ((Play.request path).andThen
        (r.story (r.givenStory (path :: opened)) (r.read path text) true)))
    (opened : List Text) (path : Text) : P opened path (r.givenStory opened path) := by
  rw [givenStory_eq]
  by_cases ho : path ∈ opened
  · rw [if_pos ho]
    exact recursive opened path ho
  · rw [if_neg ho]
    cases hl : r.settings.library.get? path with
    | none => exact missing opened path ho hl
    | some text =>
      exact found opened path text ho hl fun q =>
        givenStory_induction recursive missing found (path :: opened) q
termination_by r.settings.library.paths.countP (· ∉ opened)
decreasing_by exact countP_notOpen_lt (Library.mem_paths_of_get? hl) ho

/-! ### Whole runs -/

/-- A run of a story by itself up to the verdict. -/
def performance (s : Story) (p : Progress W) : Trace W :=
  r.story (r.givenStory [s.path]) s false { p with state := .initial }

/-- A run of a story as an embedded one, while stories with the paths `opened` are open. -/
def embedded (opened : List Text) (s : Story) : Play W :=
  r.story (r.givenStory (s.path :: opened)) s true

/-- A given story that is not open and is there is run as an embedded one. -/
theorem givenStory_of_found {opened : List Text} {path text : Text} (ho : path ∉ opened)
    (hl : r.settings.library.get? path = some text) :
    r.givenStory opened path =
      (Play.request path).andThen (r.embedded opened (r.read path text)) := by
  rw [givenStory_eq, if_neg ho, hl]
  rfl

/-- What the active strategy makes of the outstanding error. -/
def verdict (state : RunState) : Option RunError :=
  match r.settings.strategy state.activeStrategy state.outstanding with
  | .ok () => none
  | .error e => some (.step e)

theorem run_of_some {s : Story} {p : Progress W} {e : RunError}
    (h : (r.performance s p).fatal = some e) : r.run s p = r.performance s p :=
  Play.andThen_of_some h

theorem run_of_none {s : Story} {p : Progress W} (h : (r.performance s p).fatal = none) :
    r.run s p =
      ⟨(r.performance s p).journal ++
          [.consulted (r.performance s p).progress.state.activeStrategy
            (r.performance s p).progress.state.outstanding],
        (r.performance s p).progress, r.verdict (r.performance s p).progress.state⟩ :=
  Play.andThen_of_none h

theorem events_run (s : Story) (p : Progress W) :
    (r.run s p).events = (r.performance s p).events := by
  cases h : (r.performance s p).fatal with
  | some e => rw [run_of_some r h]
  | none => rw [run_of_none r h, Trace.events_eq, eventsOf_append]; exact List.append_nil _

theorem progress_run (s : Story) (p : Progress W) :
    (r.run s p).progress = (r.performance s p).progress := by
  cases h : (r.performance s p).fatal with
  | some e => rw [run_of_some r h]
  | none => rw [run_of_none r h]

/-! ### Properties that go over to the whole -/

/-- A property that holds of the smallest parts within a story and goes over to what is put together
from parts that have it. What is carried out in any case never ends a run. -/
structure Compositional (P : Play W → Prop) : Prop where
  skip : P .skip
  andThen : ∀ {a b}, P a → P b → P (a.andThen b)
  ensuring : ∀ {a b}, P a → P b → (∀ p, (b p).fatal = none) → P (a.ensuring b)
  report : ∀ e : Event, e.outcome? = none → (∀ s embedded, e ≠ .beforeStory s embedded) →
    (∀ embedded, e ≠ .afterStory embedded) → P (.report e)
  pass : ∀ steps row, P (r.pass steps row)

/-- A property of parts within a story that also holds of what stories begin and end with, and of
asking for a story and refusing it. -/
structure Hereditary (P : Play W → Prop) : Prop extends r.Compositional P where
  storyHooks : ∀ place, P (r.storyHooks place)
  beforeStory : ∀ s embedded, P (.report (.beforeStory s embedded))
  afterStory : ∀ embedded, P (.report (.afterStory embedded))
  request : ∀ path, P (.request path)
  fail : ∀ e, P (.fail e)

variable {r} {P : Play W → Prop}

namespace Compositional

variable (h : r.Compositional P)
include h

theorem inOrder {parts : List (Play W)} (hp : ∀ a ∈ parts, P a) : P (.inOrder parts) := by
  induction parts with
  | nil => exact h.skip
  | cons a parts ih =>
    rw [Play.inOrder_cons]
    exact h.andThen (hp a (by simp)) (ih fun b hb => hp b (by simp [hb]))

theorem passes (s : Scenario) : P (r.passes s) := by
  unfold Runner.passes
  split
  · exact h.pass _ _
  · refine h.inOrder fun a ha => ?_
    simp only [List.mem_cons, List.not_mem_nil, or_false] at ha
    obtain rfl | rfl | rfl := ha
    · exact h.report _ rfl nofun nofun
    · refine h.inOrder fun b hb => ?_
      obtain ⟨row, -, rfl⟩ := List.mem_map.1 hb
      simp only [Play.inOrder_cons, Play.inOrder_nil, Play.andThen_skip]
      exact h.andThen (h.report _ rfl nofun nofun) (h.pass _ _)
    · exact h.report _ rfl nofun nofun

theorem scenario {given : Text → Play W} (hg : ∀ path, P (given path)) (s : Scenario) :
    P (r.scenario given s) := by
  have hgs : P (givenStories given s.givenStories) := by
    unfold givenStories
    split
    · exact h.skip
    · simp only [Play.inOrder_cons, Play.inOrder_nil, Play.andThen_skip]
      refine h.andThen (h.report _ rfl nofun nofun) (h.inOrder fun a ha => ?_)
      obtain ⟨path, -, rfl⟩ := List.mem_map.1 ha
      exact hg path
  simp only [Runner.scenario, Play.inOrder_cons, Play.inOrder_nil, Play.andThen_skip]
  exact h.andThen (h.report _ rfl nofun nofun) (h.ensuring (h.andThen hgs (h.passes s))
    (h.report _ rfl nofun nofun) fun _ => rfl)

theorem scenarios {given : Text → Play W} (hg : ∀ path, P (given path)) (ss : List Scenario) :
    P (.inOrder (ss.map (r.scenario given))) := by
  refine h.inOrder fun a ha => ?_
  obtain ⟨s, -, rfl⟩ := List.mem_map.1 ha
  exact h.scenario hg s

end Compositional

namespace Hereditary

variable (h : r.Hereditary P)
include h

theorem story {given : Text → Play W} (hg : ∀ path, P (given path)) (s : Story)
    (embedded : Bool) : P (r.story given s embedded) := by
  simp only [Runner.story, Play.inOrder_cons, Play.inOrder_nil, Play.andThen_skip]
  refine h.andThen (h.beforeStory _ _) (h.andThen (h.storyHooks _)
    (h.ensuring (h.scenarios hg _) (h.andThen (h.storyHooks _) (h.afterStory _)) fun p => ?_))
  exact congrArg Trace.fatal (Play.andThen_of_none (Item.fatal_sequence _ _ _ p))

theorem givenStory (opened : List Text) (path : Text) : P (r.givenStory opened path) := by
  refine r.givenStory_induction (P := fun _ _ a => P a) ?_ ?_ ?_ opened path
  · exact fun _ path _ => h.andThen (h.request path) (h.fail _)
  · exact fun _ path _ _ => h.andThen (h.request path) (h.fail _)
  · exact fun _ path _ _ _ hg => h.andThen (h.request path) (h.story hg _ _)

end Hereditary

end Runner

end PlainStory
