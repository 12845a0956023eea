import PlainStory.Report.Signal
import PlainStory.Report.Style

/-!
# Summaries

A summary counts the stories, scenarios and steps of the events it sees. The class of a scenario is
given by the outcomes reported while it is the innermost one that is open. The summary is written
after each story that was run by itself.
-/

namespace PlainStory

/-- Numbers of steps or scenarios by what became of them. -/
structure Stats where
  passed : Nat := 0
  failed : Nat := 0
  pending : Nat := 0
  notPerformed : Nat := 0
  comments : Nat := 0
deriving DecidableEq

namespace Stats

def total (s : Stats) : Nat := s.passed + s.failed + s.pending + s.notPerformed + s.comments

/-- Counts one more outcome. -/
def count (s : Stats) : StepOutcome → Stats
  | .successful _ => { s with passed := s.passed + 1 }
  | .failed .. => { s with failed := s.failed + 1 }
  | .pending _ => { s with pending := s.pending + 1 }
  | .notPerformed _ => { s with notPerformed := s.notPerformed + 1 }
  | .comment _ => { s with comments := s.comments + 1 }

/-- The numbers that are not zero, between brackets. -/
def render (painted : Bool) (s : Stats) : Text :=
  let part := fun (n : Nat) (word : Text) (style : Text → Text) =>
    if n = 0 then [] else [style (Text.ofNat n ++ " " ++ word)]
  let skipped := Style.skipped.paint painted
  let parts :=
    part s.passed "passed" (Style.ok.paint painted) ++
      part s.failed "failed" (Style.err.paint painted) ++
      part s.pending "pending" skipped ++ part s.notPerformed "not performed" skipped ++
      part s.comments "ignorable" id
  if parts = [] then [] else " (" ++ Text.join ", " parts ++ ")"

end Stats

/-- How a scenario went so far. -/
inductive ScenarioStatus where
  | passed
  | pending
  | failed
deriving DecidableEq

namespace ScenarioStatus

/-- Takes one more outcome into account. -/
def note (s : ScenarioStatus) : StepOutcome → ScenarioStatus
  | .failed .. => failed
  | .pending _ => if s = passed then pending else s
  | .successful _ | .notPerformed _ | .comment _ => s

/-- Counts a finished scenario. -/
def addTo (stats : Stats) : ScenarioStatus → Stats
  | passed => { stats with passed := stats.passed + 1 }
  | pending => { stats with pending := stats.pending + 1 }
  | failed => { stats with failed := stats.failed + 1 }

end ScenarioStatus

structure Summary where
  painted : Bool := false
  /-- How the time taken so far is shown. -/
  elapsed : Text := "0s"
  stories : Nat := 0
  scenarios : Stats := {}
  steps : Stats := {}
  /-- The scenarios that are open, innermost first. -/
  running : List ScenarioStatus := []

namespace Summary

def hasFailed (s : Summary) : Bool := 0 < s.steps.failed

def noteInnermost (o : StepOutcome) : List ScenarioStatus → List ScenarioStatus
  | [] => []
  | s :: ss => s.note o :: ss

/-- Takes one more event into account. -/
def track (s : Summary) : Event → Summary
  | .beforeStory .. => { s with stories := s.stories + 1 }
  | .beforeScenario _ => { s with running := .passed :: s.running }
  | .afterScenario =>
    match s.running with
    | [] => s
    | status :: rest => { s with scenarios := status.addTo s.scenarios, running := rest }
  | .outcome o => { s with steps := s.steps.count o, running := noteInnermost o s.running }
  | .afterStory _ | .givenStories _ | .beforeExamples .. | .exampleRow _ | .afterExamples => s

def render (s : Summary) : Text :=
  let bold := Style.bold.paint s.painted
  let counted := fun (n : Nat) (one many : Text) =>
    bold (Text.ofNat n ++ " " ++ (if n = 1 then one else many))
  Text.joinLines
    [bold (Style.header.paint s.painted "[Summary]"),
      counted s.stories "story" "stories",
      counted s.scenarios.total "scenario" "scenarios" ++ s.scenarios.render s.painted,
      counted s.steps.total "step" "steps" ++ s.steps.render s.painted,
      bold ("Took " ++ s.elapsed)]

/-- Passes every signal on, and the summary after the end of a story that was run by itself. -/
def step (s : Summary) : Signal → Summary × List Signal
  | .text t => (s, [.text t])
  | .event e =>
    let s := s.track e
    (s, if e = .afterStory false then [.event e, .text s.render] else [.event e])

end Summary

end PlainStory
