import PlainStory.Step.Error
import PlainStory.Story.Basic

/-!
# Events

What happens in a run, in the order in which it happens. Stories, scenarios and examples have an event
at their beginning and one at their end; steps and failing hooks have one event, their outcome.
-/

namespace PlainStory

/-- What became of a step, or of a hook that failed. -/
inductive StepOutcome where
  | successful (step : Text)
  | failed (step : Text) (error : StepError)
  | pending (step : Text)
  | notPerformed (step : Text)
  | comment (step : Text)
deriving DecidableEq

namespace StepOutcome

def step : StepOutcome → Text
  | successful s | failed s _ | pending s | notPerformed s | comment s => s

/-- The error of a step that failed or is pending. -/
def error? : StepOutcome → Option StepError
  | failed _ e => some e
  | pending s => some (.pending s)
  | successful _ | notPerformed _ | comment _ => none

end StepOutcome

/-- A story is embedded when it is run because a scenario of another one asks for it. -/
inductive Event where
  | beforeStory (story : Story) (embedded : Bool)
  | afterStory (embedded : Bool)
  | beforeScenario (title : Text)
  | afterScenario
  | givenStories (paths : List Text)
  | beforeExamples (steps : List Text) (table : Table)
  | exampleRow (row : Row)
  | afterExamples
  | outcome (o : StepOutcome)
deriving DecidableEq

def Event.outcome? : Event → Option StepOutcome
  | outcome o => some o
  | _ => none

end PlainStory
