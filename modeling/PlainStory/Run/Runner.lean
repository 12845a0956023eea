import PlainStory.Run.Sequence
import PlainStory.Story.Reader

/-!
# Running stories

A story runs its hooks and scenarios. A scenario first runs the stories it asks for, embedded in
itself, and then its steps, once or for each row of its examples. A given story that is not there or
that is open already ends the story that asked for it; whatever has been begun is still closed.

Each given story is opened within those that are open already, and no path is opened twice, so the
number of registered paths that are not open gets smaller with each of them.
-/

namespace PlainStory

/-- What stays the same for all runs: settings, and registries in the order of their lookup. -/
structure Runner (W : Type) where
  settings : Settings := {}
  registries : List (Registry W) := []

namespace Runner

variable {W : Type} (r : Runner W)

/-! ### Sequences of a story -/

/-- The story hooks at the given place, as one sequence. -/
def storyHooks (place : HookPlace) : Play W :=
  Item.sequence r.settings none ((r.registries.flatMap (·.hooksAt place)).map .hook)

/-- The items of one pass: the hooks before it, those of the last registry first, then the steps and
the hooks after it. -/
def passItems (steps : List Text) (row : Option Row) : List (Item W) :=
  (r.registries.reverse.flatMap (·.hooksAt .beforeScenario)).map .hook ++
    steps.map (.ofStep r.settings.keywords r.registries row) ++
    (r.registries.flatMap (·.hooksAfterScenario)).map .hook

def pass (steps : List Text) (row : Option Row) : Play W :=
  Item.sequence r.settings row (r.passItems steps row)

/-- All passes of a scenario: one, or one for each row of its examples. -/
def passes (s : Scenario) : Play W :=
  if s.examples.rows = [] then r.pass s.steps none
  else
    .inOrder
      [.report (.beforeExamples s.steps s.examples),
        .inOrder (s.examples.rows.map fun row =>
          .inOrder [.report (.exampleRow row), r.pass s.steps (some row)]),
        .report .afterExamples]

/-! ### Scenarios and stories

Here `given` is the part of a run in which the given story at a path is run. -/

def givenStories (given : Text → Play W) (paths : List Text) : Play W :=
  if paths = [] then .skip
  else .inOrder [.report (.givenStories paths), .inOrder (paths.map given)]

def scenario (given : Text → Play W) (s : Scenario) : Play W :=
  .inOrder
    [.report (.beforeScenario s.title),
      .ensuring (.inOrder [givenStories given s.givenStories, r.passes s]) (.report .afterScenario)]

def story (given : Text → Play W) (s : Story) (embedded : Bool) : Play W :=
  .inOrder
    [.report (.beforeStory s embedded),
      r.storyHooks (.beforeStory embedded),
      .ensuring (.inOrder (s.scenarios.map (r.scenario given)))
        (.inOrder [r.storyHooks (.afterStory embedded), .report (.afterStory embedded)])]

/-- The story at a path, with the keywords of the settings. -/
def read (path text : Text) : Story := .ofText r.settings.keywords text (some path)

/-- One path fewer is not open when a path is opened. -/
theorem countP_notOpen_lt {path : Text} {paths opened : List Text} (hp : path ∈ paths)
    (ho : path ∉ opened) :
    paths.countP (· ∉ path :: opened) < paths.countP (· ∉ opened) := by
  induction paths with
  | nil => simp at hp
  | cons q qs ih =>
    have le : qs.countP (· ∉ path :: opened) ≤ qs.countP (· ∉ opened) :=
      List.countP_mono_left fun _ _ h => by simp_all
    rw [List.countP_cons, List.countP_cons]
    by_cases hq : q = path
    · subst hq
      simp only [List.mem_cons, true_or, not_true_eq_false, decide_false, ho, not_false_eq_true,
        decide_true] at *
      simp only [Bool.false_eq_true, ↓reduceIte] at *
      omega
    · have := ih (by simpa [Ne.symm hq] using hp)
      by_cases hqo : q ∈ opened <;> simp_all

/-- The part of a run in which the given story at a path is run, while stories with the paths
`opened` are open. -/
def givenStory (opened : List Text) (path : Text) : Play W := fun p =>
  if _ho : path ∈ opened then ⟨[.requested path], p, some (.recursive path)⟩
  else
    match _hl : r.settings.library.get? path with
    | none => ⟨[.requested path], p, some (.load (.notFound path))⟩
    | some text =>
      let t := r.story (fun q p => givenStory (path :: opened) q p) (r.read path text) true p
      { t with journal := .requested path :: t.journal }
termination_by r.settings.library.paths.countP (· ∉ opened)
decreasing_by exact countP_notOpen_lt (Library.mem_paths_of_get? _hl) _ho

/-! ### Runs -/

/-- Asks the active strategy about the outstanding error. -/
def conclude : Play W := fun p =>
  let active := p.state.activeStrategy
  let outstanding := p.state.outstanding
  ⟨[.consulted active outstanding], p,
    match r.settings.strategy active outstanding with
    | .ok () => none
    | .error e => some (.step e)⟩

/-- Runs a story from the state in which the runs before it left off, as an embedded one. -/
def runEmbedded (s : Story) : Play W := r.story (r.givenStory [s.path]) s true

/-- Runs a story by itself, from a fresh state, up to the verdict of the strategies. -/
def run (s : Story) : Play W := fun p =>
  Play.andThen (r.story (r.givenStory [s.path]) s false) r.conclude { p with state := .initial }

/-- Loads the story at a path and runs it by itself. -/
def runPath (path : Text) : Play W :=
  match r.settings.library.load path with
  | .ok text => r.run (r.read path text)
  | .error e => .fail (.load e)

end Runner

end PlainStory
