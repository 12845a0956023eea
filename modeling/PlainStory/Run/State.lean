import PlainStory.Run.Event
import PlainStory.Settings

/-!
# The state of a run

A run remembers whether the present sequence of steps went fine so far, and the most important error
of all its steps. At its end that error is handed to one of two strategies.
-/

namespace PlainStory

/-- The strategy that an outstanding error is for. -/
inductive ActiveStrategy where
  | onError
  | onPending
deriving DecidableEq

structure RunState where
  /-- Whether the present sequence went fine so far. -/
  fine : Bool := true
  outstanding : Option StepError := none
deriving DecidableEq

namespace RunState

/-- The state at the beginning of a run. -/
def initial : RunState := {}

def startSequence (s : RunState) : RunState := { s with fine := true }

/-- Takes an error into account. -/
def record (s : RunState) (e : StepError) : RunState :=
  ⟨false, some (.mostImportant s.outstanding e)⟩

/-- Takes the error of an outcome into account, if it has one. -/
def note (s : RunState) (o : StepOutcome) : RunState :=
  match o.error? with
  | some e => s.record e
  | none => s

def activeStrategy (s : RunState) : ActiveStrategy :=
  if s.outstanding.any StepError.isPending then .onPending else .onError

end RunState

/-- The strategy of the given kind. -/
def Settings.strategy (s : Settings) : ActiveStrategy → Strategy
  | .onError => s.onError
  | .onPending => s.onPending

end PlainStory
