import PlainStory.Report.Signal

/-!
# Quiet reports

A quiet report holds back the events of each outermost scenario until it is closed, and then passes
them on only if a step failed or was pending in it.
-/

namespace PlainStory

/-- Whether an event makes the scenario around it worth reporting. -/
def Event.isNoteworthy : Event → Bool
  | outcome (.failed ..) | outcome (.pending _) => true
  | _ => false

structure Quiet where
  /-- The number of scenarios that are open. -/
  depth : Nat := 0
  noteworthy : Bool := false
  /-- The events held back, the last one first. -/
  held : List Event := []

namespace Quiet

/-- Holds back an event of a scenario that is open. -/
def hold (q : Quiet) (e : Event) : Quiet :=
  { q with noteworthy := q.noteworthy || e.isNoteworthy, held := e :: q.held }

/-- Closes a scenario. Closing the outermost one passes on what was held back, or drops it. -/
def close (q : Quiet) : Quiet × List Signal :=
  if q.depth ≤ 1 then ({}, if q.noteworthy then q.held.reverse.map .event else [])
  else ({ q with depth := q.depth - 1 }, [])

def step (q : Quiet) : Signal → Quiet × List Signal
  | .text t => (q, [.text t])
  | .event (.beforeScenario title) =>
    ({ q with depth := q.depth + 1 }.hold (.beforeScenario title), [])
  | .event e =>
    if q.depth = 0 then (q, [.event e])
    else if e = .afterScenario then (q.hold e).close
    else (q.hold e, [])

end Quiet

end PlainStory
