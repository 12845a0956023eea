import PlainStory.Run.Event

/-!
# Signals

A reporter receives signals: the events of a run, and texts to be written as they are. What stands in
front of a reporter turns each signal into the signals that it passes on.
-/

namespace PlainStory

inductive Signal where
  | event (e : Event)
  | text (s : Text)
deriving DecidableEq

namespace Signal

def event? : Signal → Option Event
  | event e => some e
  | text _ => none

/-- Passes signals through a step function with a state: the state at the end, and all that was
passed on. -/
def passThrough {σ : Type} (step : σ → Signal → σ × List Signal) : σ → List Signal → σ × List Signal
  | s, [] => (s, [])
  | s, i :: is =>
    let (s, out) := step s i
    let (s, more) := passThrough step s is
    (s, out ++ more)

@[simp] theorem passThrough_nil {σ : Type} (step : σ → Signal → σ × List Signal) (s : σ) :
    passThrough step s [] = (s, []) := rfl

theorem passThrough_append {σ : Type} (step : σ → Signal → σ × List Signal) (s : σ)
    (first second : List Signal) :
    passThrough step s (first ++ second) =
      let front := passThrough step s first
      let back := passThrough step front.1 second
      (back.1, front.2 ++ back.2) := by
  induction first generalizing s with
  | nil => simp
  | cons i is ih => simp [passThrough, ih]

end Signal

end PlainStory
