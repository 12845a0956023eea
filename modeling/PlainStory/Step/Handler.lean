import PlainStory.Step.Error

/-!
# Handlers

What a step or hook does is given by a handler, a function on the world. A handler can succeed, report
an error, or panic; what it did to the world up to there remains.
-/

namespace PlainStory

/-- How a handler ended. A panic carries a payload, which may be no text. -/
inductive HandlerResult where
  | ok
  | error (message : Text)
  | panic (payload : Option Text)
deriving DecidableEq

/-- The failure of the step or hook with the given text, if its handler did not succeed. -/
def HandlerResult.failure? (step : Text) : HandlerResult → Option Failure
  | ok => none
  | error message => some (.invocation step message)
  | panic payload => some (.panic step (payload.getD "(Could not resolve panic payload)"))

end PlainStory
