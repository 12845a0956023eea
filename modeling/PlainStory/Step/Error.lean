import PlainStory.Argument.Conversion

/-!
# Step errors

A step that nothing matches is pending; a step or hook that goes wrong has failed. A failure is more
important than a pending step, and of two equally important errors the earlier one is kept.
-/

namespace PlainStory

/-- How a step or hook failed. -/
inductive Failure where
  | invalidParameter (e : InvalidParameter)
  | invocation (step cause : Text)
  | panic (step message : Text)
deriving DecidableEq

def Failure.message : Failure → Text
  | invalidParameter e => e.message
  | invocation step cause => "`" ++ step ++ "` failed: " ++ cause
  | panic step message => "`" ++ step ++ "` panicked: " ++ message

inductive StepError where
  | pending (step : Text)
  | failed (f : Failure)
deriving DecidableEq

namespace StepError

def message : StepError → Text
  | pending step => "Step `" ++ step ++ "` is pending"
  | failed f => f.message

def isPending : StepError → Bool
  | pending _ => true
  | failed _ => false

def isFailure : StepError → Bool
  | pending _ => false
  | failed _ => true

/-- The more important of the error kept so far and the next one. -/
def mostImportant (current : Option StepError) (next : StepError) : StepError :=
  match current with
  | none => next
  | some e => if e.isFailure || next.isPending then e else next

end StepError

end PlainStory
