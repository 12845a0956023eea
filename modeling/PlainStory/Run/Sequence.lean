import PlainStory.Examples.Substitution
import PlainStory.Run.Journal

/-!
# Sequences

A pass through a scenario is a sequence of hooks and steps. Steps are carried out as long as
everything went fine; behind the first failure or pending step they are reported as not performed.
Comments are reported as such throughout, and hooks run if they admit how things went.
-/

namespace PlainStory

/-- One item of a sequence. Steps have the values of the example row substituted. -/
inductive Item (W : Type) where
  | hook (h : Hook W)
  | matched (step : Text) (m : Match W)
  | pending (step : Text)
  | comment (step : Text)

namespace Item

variable {W : Type}

/-- The item of a step with the given raw text. -/
def ofStep (keywords : Keywords) (registries : List (Registry W)) (row : Option Row) (raw : Text) :
    Item W :=
  let step := row.elim raw fun r => r.substitute raw
  if keywords.isComment step then comment step
  else
    match Registry.findAcross? registries step with
    | some m => matched step m
    | none => pending step

/-- Whether an item takes part in its sequence, given whether everything went fine before it. -/
def admits (fine : Bool) : Item W → Bool
  | hook h => h.admits fine
  | matched .. | pending _ | comment _ => true

/-- Whether an item is carried out, given whether everything went fine before it. -/
def isCarriedOut (fine : Bool) : Item W → Bool
  | hook _ => true
  | matched .. | pending _ | comment _ => fine

/-- The outcome of an item that is not carried out. -/
def outcomeSkipped : Item W → StepOutcome
  | hook h => .notPerformed h.label
  | matched step _ => .notPerformed step
  | pending step => .notPerformed step
  | comment step => .comment step

/-- The outcome of a hook, which only shows when it failed. -/
def outcomeOfHook (label : Text) (failure : Option Failure) : Option StepOutcome :=
  failure.map fun f => .failed label (.failed f)

def outcomeOfStep (step : Text) : Option Failure → StepOutcome
  | none => .successful step
  | some f => .failed step (.failed f)

/-- Carries out an item: the handlers called for it, its outcome, and the world it leaves. In a dry
run nothing is called and everything succeeds. -/
def perform (s : Settings) (row : Option Row) (w : W) :
    Item W → List (Entry W) × Option StepOutcome × W
  | hook h =>
    if s.dryRun then ([], none, w)
    else
      let (failure, w) := h.run w
      ([.hookCalled h], outcomeOfHook h.label failure, w)
  | matched step m =>
    if s.dryRun then ([], some (.successful step), w)
    else
      match m.candidate.context? s.converters step m.values row with
      | .error e => ([], some (outcomeOfStep step (some (.invalidParameter e))), w)
      | .ok context =>
        let (failure, w) := m.candidate.call context w
        ([.stepCalled m.candidate context], some (outcomeOfStep step failure), w)
  | pending step => ([], some (.pending step), w)
  | comment step => ([], some (.comment step), w)

/-- The part of a run in which it is the turn of an item. -/
def turn (s : Settings) (row : Option Row) (i : Item W) : Play W := fun p =>
  if i.admits p.state.fine then
    let (calls, outcome, w) :=
      if i.isCarriedOut p.state.fine then i.perform s row p.world
      else ([], some i.outcomeSkipped, p.world)
    match outcome with
    | none => ⟨calls, ⟨w, p.state⟩, none⟩
    | some o => ⟨calls ++ [.reported (.outcome o)], ⟨w, p.state.note o⟩, none⟩
  else Play.skip p

/-- The part of a run that carries out the given items as one sequence. -/
def sequence (s : Settings) (row : Option Row) (items : List (Item W)) : Play W := fun p =>
  Play.inOrder (items.map (turn s row)) { p with state := p.state.startSequence }

end Item

end PlainStory
