import PlainStory.Argument.Conversion
import PlainStory.Keyword.Basic
import PlainStory.Library.Basic
import PlainStory.Pattern.Basic
import PlainStory.Report.Coloring
import PlainStory.Step.Error

/-!
# Settings

The settings of a run: the language of its stories, how steps and their arguments are read, where
given stories come from, and what the errors of its steps mean for the run as a whole.
-/

namespace PlainStory

/-- Decides whether the outstanding error of a run, if there is one, makes the run fail. -/
abbrev Strategy := Option StepError → Except StepError Unit

namespace Strategy

/-- No error makes the run fail. -/
def absorb : Strategy := fun _ => .ok ()

/-- Any error makes the run fail. -/
def rethrow : Strategy
  | none => .ok ()
  | some e => .error e

end Strategy

structure Settings where
  keywords : Keywords := .english
  /-- The mark of placeholders in step patterns. -/
  mark : Char := Pattern.defaultMark
  converters : Converters := {}
  library : Library := {}
  onError : Strategy := .rethrow
  onPending : Strategy := .absorb
  /-- Whether steps are reported as successful without being carried out. -/
  dryRun : Bool := false
  coloring : Coloring := .auto

end PlainStory
