import PlainStory.Step.Handler

/-!
# Hooks

Hooks run around stories and around each pass of a scenario. A story hook is for stories that are run
by themselves or for given ones; a hook after a scenario can depend on how the scenario went.
-/

namespace PlainStory

/-- How a scenario must have gone for a hook after it to run. -/
inductive UponOutcome where
  | any
  | success
  | failure
deriving DecidableEq

/-- Whether a hook runs, given whether everything went fine before it. -/
def UponOutcome.admits (fine : Bool) : UponOutcome → Bool
  | any => true
  | success => fine
  | failure => !fine

/-- Where a hook runs. A story hook says whether it is for given stories. -/
inductive HookPlace where
  | beforeStory (given : Bool)
  | afterStory (given : Bool)
  | beforeScenario
  | afterScenario (upon : UponOutcome)
deriving DecidableEq

namespace HookPlace

/-- How a scenario must have gone for a hook at this place to run. -/
def upon : HookPlace → UponOutcome
  | afterScenario upon => upon
  | beforeStory _ | afterStory _ | beforeScenario => .any

def isAfterScenario : HookPlace → Bool
  | afterScenario _ => true
  | beforeStory _ | afterStory _ | beforeScenario => false

/-- The text that a hook at this place is reported with. -/
def label : HookPlace → Text
  | beforeStory false => "@BeforeStory"
  | beforeStory true => "@BeforeStory (upon given story)"
  | afterStory false => "@AfterStory"
  | afterStory true => "@AfterStory (upon given story)"
  | beforeScenario => "@BeforeScenario"
  | afterScenario _ => "@AfterScenario"

end HookPlace

structure Hook (W : Type) where
  place : HookPlace
  handler : W → HandlerResult × W

namespace Hook

variable {W : Type}

def label (h : Hook W) : Text := h.place.label

/-- Whether a hook runs, given whether everything went fine before it. -/
def admits (h : Hook W) (fine : Bool) : Bool := h.place.upon.admits fine

/-- Runs a hook, with its failure if there is one and the world it leaves. -/
def run (h : Hook W) (w : W) : Option Failure × W :=
  let (result, w) := h.handler w
  (result.failure? h.label, w)

end Hook

end PlainStory
