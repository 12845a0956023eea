import PlainStory.Report.Console
import PlainStory.Report.Quiet
import PlainStory.Report.Summary

/-!
# Reporters

A reporter records or writes what it receives, or stands in front of others.
-/

namespace PlainStory

inductive Reporter where
  /-- Keeps all signals. -/
  | recorder (signals : List Signal)
  | console (c : Console)
  | summary (s : Summary) (inner : Reporter)
  | quiet (q : Quiet) (inner : Reporter)
  /-- Passes each event to all of the given reporters, and no texts. -/
  | each (inner : List Reporter)

namespace Reporter

mutual

/-- The reporter after receiving the given signals. -/
def receive : Reporter → List Signal → Reporter
  | recorder kept, signals => recorder (kept ++ signals)
  | console c, signals => console (c.receiveAll signals)
  | summary s inner, signals =>
    let (s, passed) := Signal.passThrough Summary.step s signals
    summary s (receive inner passed)
  | quiet q inner, signals =>
    let (q, passed) := Signal.passThrough Quiet.step q signals
    quiet q (receive inner passed)
  | each inner, signals =>
    each (receiveEach inner (signals.filterMap fun s => s.event?.map .event))

def receiveEach : List Reporter → List Signal → List Reporter
  | [], _ => []
  | r :: rs, signals => receive r signals :: receiveEach rs signals

end

mutual

/-- The same reporter without what it has recorded or written so far. -/
def forget : Reporter → Reporter
  | recorder _ => recorder []
  | console c => console { c with output := { c.output with written := [] } }
  | summary s inner => summary s (forget inner)
  | quiet q inner => quiet q (forget inner)
  | each inner => each (forgetEach inner)

def forgetEach : List Reporter → List Reporter
  | [] => []
  | r :: rs => forget r :: forgetEach rs

end

end Reporter

end PlainStory
