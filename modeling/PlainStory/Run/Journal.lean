import PlainStory.Run.State
import PlainStory.Step.Registry

/-!
# Journals

Carrying out a part of a run leaves a trace: the journal of what happened, how far the run has come,
and the error that ended the part early, if there was one. Parts are put together in order, where a
fatal error skips what comes after it, or so that the last one is carried out in any case.
-/

namespace PlainStory

/-- Why a run failed. -/
inductive RunError where
  | step (e : StepError)
  | load (e : LoadError)
  | recursive (path : Text)
deriving DecidableEq

def RunError.message : RunError → Text
  | step e => e.message
  | load e => e.message
  | recursive path => "Given story `" ++ path ++ "` recursively includes itself"

/-- What a run changes. -/
structure Progress (W : Type) where
  world : W
  state : RunState

/-- Something that happens in a run. -/
inductive Entry (W : Type) where
  | reported (e : Event)
  | hookCalled (h : Hook W)
  | stepCalled (c : Candidate W) (context : Context)
  /-- A given story was asked for. -/
  | requested (path : Text)
  /-- A strategy was asked about the outstanding error. -/
  | consulted (s : ActiveStrategy) (error : Option StepError)

def Entry.event? {W : Type} : Entry W → Option Event
  | reported e => some e
  | _ => none

/-- What a handler that was called did to the world. -/
def Entry.effect {W : Type} : Entry W → W → W
  | hookCalled h, w => (h.run w).2
  | stepCalled c context, w => (c.call context w).2
  | _, w => w

structure Trace (W : Type) where
  journal : List (Entry W)
  progress : Progress W
  fatal : Option RunError := none

def Trace.events {W : Type} (t : Trace W) : List Event := t.journal.filterMap Entry.event?

/-- A part of a run. -/
abbrev Play (W : Type) := Progress W → Trace W

namespace Play

variable {W : Type}

def skip : Play W := fun p => ⟨[], p, none⟩

def report (e : Event) : Play W := fun p => ⟨[.reported e], p, none⟩

def fail (e : RunError) : Play W := fun p => ⟨[], p, some e⟩

/-- Carries out one part and, unless it ended early, the next. -/
def andThen (a b : Play W) : Play W := fun p =>
  let t := a p
  match t.fatal with
  | some _ => t
  | none =>
    let u := b t.progress
    ⟨t.journal ++ u.journal, u.progress, u.fatal⟩

/-- Carries out one part after another, up to the first that ends early. -/
def inOrder : List (Play W) → Play W
  | [] => skip
  | [a] => a
  | a :: parts => a.andThen (inOrder parts)

/-- Carries out a part and then another one in any case. -/
def ensuring (a b : Play W) : Play W := fun p =>
  let t := a p
  let u := b t.progress
  ⟨t.journal ++ u.journal, u.progress, t.fatal.or u.fatal⟩

@[simp] theorem skip_andThen (a : Play W) : skip.andThen a = a := rfl

@[simp] theorem andThen_skip (a : Play W) : a.andThen skip = a := by
  funext p
  unfold andThen
  dsimp only
  split
  · rfl
  · next h => simp [skip, ← h]

theorem andThen_assoc (a b c : Play W) : (a.andThen b).andThen c = a.andThen (b.andThen c) := by
  funext p
  unfold andThen
  dsimp only
  cases ha : (a p).fatal with
  | some e => simp [ha]
  | none => cases hb : (b (a p).progress).fatal <;> simp [hb]

@[simp] theorem inOrder_nil : inOrder ([] : List (Play W)) = skip := rfl

@[simp] theorem inOrder_cons (a : Play W) (parts : List (Play W)) :
    inOrder (a :: parts) = a.andThen (inOrder parts) := by
  cases parts with
  | nil => rw [inOrder_nil, andThen_skip, inOrder]
  | cons b parts => rw [inOrder]; simp

end Play

end PlainStory
