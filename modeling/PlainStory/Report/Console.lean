import PlainStory.Keyword.Basic
import PlainStory.Report.Signal
import PlainStory.Report.Style

/-!
# Console reports

A console report has a few lines for each event, indented by two spaces for each story and scenario
that is open around it. A text that is written in between is not indented. Writing may fail; what is
left of the lines of an event is then given up.
-/

namespace PlainStory

/-! ### Lines -/

namespace Event

/-- The lines that describe a story at its beginning. -/
def storyLines (k : Keywords) (painted : Bool) (s : Story) (embedded : Bool) : List Text :=
  let kind : Text := if embedded then "Given story" else "Story"
  let clause := fun w c => "    " ++ k.token w ++ " " ++ c
  let n := s.narrative
  let clauses :=
    if n.isWithBenefit then
      [clause .asA n.asA, clause .iWantTo n.iWantTo, clause .soThat n.soThat]
    else
      [clause .inOrderTo n.inOrderTo, clause .asA n.asA, clause .iWantTo n.iWantTo]
  [Style.bold.paint painted (Style.header.paint painted (kind ++ ": " ++ s.path))] ++
    ((Text.lines s.description).filter (!Text.blank ·)).map (fun l => "  " ++ Text.trim l) ++
    (if n.isEmpty then [] else ("  " ++ k.token .narrative) :: clauses)

def outcomeLines (k : Keywords) (painted : Bool) : StepOutcome → List Text
  | .successful s => [Style.ok.paint painted ("✔  " ++ s)]
  | .failed s e =>
    [Style.err.paint painted ("✘  " ++ s ++ " (" ++ k.token .failed ++ ")"),
      Style.err.paint painted ("   " ++ e.message)]
  | .pending s => [Style.skipped.paint painted ("?  " ++ s ++ " (" ++ k.token .pending ++ ")")]
  | .notPerformed s =>
    [Style.skipped.paint painted ("-  " ++ s ++ " (" ++ k.token .notPerformed ++ ")")]
  | .comment s => [s]

/-- The lines of an event. -/
def lines (k : Keywords) (painted : Bool) : Event → List Text
  | beforeStory s embedded => storyLines k painted s embedded
  | beforeScenario title => [Style.bold.paint painted (k.token .scenario ++ " " ++ title)]
  | givenStories paths => [k.token .givenStories ++ " " ++ Text.join ", " paths]
  | beforeExamples _ table =>
    k.token .examples :: (Text.lines table.render).map fun l => "  " ++ l
  | exampleRow row =>
    [Style.header.paint painted
      (k.token .exampleRow ++ " \x7b" ++
        Text.join ", " (row.cells.map fun (c, v) => c ++ "=" ++ v) ++ "\x7d")]
  | outcome o => outcomeLines k painted o
  | afterStory _ | afterScenario | afterExamples => []

/-- Whether an event opens a story or a scenario. -/
def isOpening : Event → Bool
  | beforeStory .. | beforeScenario _ => true
  | _ => false

/-- Whether an event closes a story or a scenario. -/
def isClosing : Event → Bool
  | afterStory _ | afterScenario => true
  | _ => false

end Event

/-! ### Output -/

/-- An output for text. Writes are counted from zero, and those with a number in `failing` fail. -/
structure Output where
  failing : List Nat := []
  writes : Nat := 0
  /-- The texts that were written, the last one first. -/
  written : List Text := []

namespace Output

/-- All that was written. -/
def text (o : Output) : Text := o.written.reverse.flatten

/-- The output with one more text written. -/
def push (o : Output) (s : Text) : Output :=
  { o with writes := o.writes + 1, written := s :: o.written }

theorem text_push (o : Output) (s : Text) : (o.push s).text = o.text ++ s := by
  simp [text, push]

/-- Writes a text, unless there is nothing to write, and says whether that succeeded. -/
def write (o : Output) (s : Text) : Output × Bool :=
  if s = [] then (o, true)
  else if o.writes ∈ o.failing then ({ o with writes := o.writes + 1 }, false)
  else (o.push s, true)

/-- Writes a text and a line break behind it. -/
def writeLine (o : Output) (s : Text) : Output × Bool :=
  let (o, done) := o.write s
  if done then o.write ['\n'] else (o, false)

/-- Writes lines up to the first that fails. -/
def writeLines (o : Output) : List Text → Output
  | [] => o
  | l :: ls =>
    let (o, done) := o.writeLine l
    if done then o.writeLines ls else o

end Output

/-! ### The report -/

structure Console where
  painted : Bool := false
  keywords : Keywords := .english
  indent : Nat := 0
  output : Output := {}

namespace Console

def writeIndented (c : Console) (lines : List Text) : Console :=
  { c with output := c.output.writeLines (lines.map (List.replicate c.indent ' ' ++ ·)) }

/-- An event is written at the indentation outside of what it opens or closes. -/
def receive (c : Console) : Signal → Console
  | .event e =>
    let c := if e.isClosing then { c with indent := c.indent - 2 } else c
    let c := c.writeIndented (e.lines c.keywords c.painted)
    if e.isOpening then { c with indent := c.indent + 2 } else c
  | .text s => { c with output := c.output.writeLines (Text.lines s) }

def receiveAll (c : Console) (signals : List Signal) : Console := signals.foldl receive c

end Console

end PlainStory
