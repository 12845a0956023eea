import PlainStory.Story.Basic
import PlainStory.Story.Opener

/-!
# Reading stories

`Story.ofText` reads any text as a story. The lines before the first opener are the description; a
narrative that stands first after them is read by its clauses; every line that opens a scenario
starts a scenario that goes on to the next such line. A text without such a line holds at most one
scenario, which has no title.
-/

namespace PlainStory

/-! ### Narratives -/

namespace Narrative

/-- The texts after the first occurrences of three words, each searched for after the one before. -/
def clauses? (first second third text : Text) : Option (Text × Text × Text) := do
  let (_, rest) ← Text.cut? first text
  let (a, rest) ← Text.cut? second rest
  let (b, c) ← Text.cut? third rest
  return (Text.trim a, Text.trim b, Text.trim c)

/-- The narrative whose clauses a text holds. -/
def ofText (k : Keywords) (text : Text) : Narrative :=
  match clauses? (k.token .inOrderTo) (k.token .asA) (k.token .iWantTo) text with
  | some (inOrderTo, asA, iWantTo) => withPurpose inOrderTo asA iWantTo
  | none =>
    match clauses? (k.token .asA) (k.token .iWantTo) (k.token .soThat) text with
    | some (asA, iWantTo, soThat) => withBenefit asA iWantTo soThat
    | none => empty

/-- Parts the lines after the one that opens a narrative into those that belong to it and the rest.
The narrative ends at the first scenario, or at the first part of one where no scenario is opened. -/
def partLines (k : Keywords) (lines : List Text) : List Text × List Text :=
  if lines.any (k.opens .scenario) then lines.span fun l => !k.opens .scenario l
  else lines.span fun l => !k.opensWithinScenario l

/-- Reads the narrative at the start of the given lines, if there is one, and gives the lines
behind it. -/
def ofLines (k : Keywords) : List Text → Narrative × List Text
  | [] => (empty, [])
  | line :: lines =>
    if k.opens .narrative line then
      let (own, rest) := partLines k lines
      (ofText k (k.withoutKeyword .narrative (Text.joinLines (line :: own))), rest)
    else (empty, line :: lines)

end Narrative

/-! ### Scenarios -/

namespace Scenario

/-- The part of a scenario that its lines are being added to. -/
inductive Part where
  | title
  | givenStories
  | step
  | examples
deriving DecidableEq

/-- A scenario while its lines are being read: the parts read so far, and the open part with its
lines. -/
structure Draft where
  done : Scenario := {}
  part : Part
  lines : List Text

/-- The paths in the lines of a part that names given stories. -/
def pathsOf (lines : List Text) : List Text :=
  ((Text.splitAt ',' (Text.join [','] lines)).map Text.trim).filter (· ≠ [])

/-- The scenario once the open part has all its lines. -/
def Draft.close (d : Draft) : Scenario :=
  let text := Text.joinLines d.lines
  match d.part with
  | .title => { d.done with title := Text.trim text }
  | .givenStories => { d.done with givenStories := d.done.givenStories ++ pathsOf d.lines }
  | .step => { d.done with steps := d.done.steps ++ [Text.trim text] }
  | .examples => { d.done with examples := .ofText text }

/-- Closes the open part and opens the next one with its first line. -/
def Draft.turnTo (d : Draft) (part : Part) (line : Text) : Draft := ⟨d.close, part, [line]⟩

/-- Adds a line to the open part or turns to the part that the line opens. Examples go on to the end
of the scenario. -/
def Draft.addLine (k : Keywords) (d : Draft) (line : Text) : Draft :=
  let longer := { d with lines := d.lines ++ [line] }
  if d.part = .examples then longer
  else
    match k.opener? line with
    | some .examples => d.turnTo .examples (k.withoutKeyword .examples line)
    | some .givenStories => d.turnTo .givenStories (k.withoutKeyword .givenStories line)
    | some .step => d.turnTo .step (Text.trimStart line)
    | some .narrative | some .scenario | none => longer

/-- The scenario with the given rest of its title line and the given lines. -/
def ofLines (k : Keywords) (title : Text) (lines : List Text) : Scenario :=
  (lines.foldl (Draft.addLine k) { part := .title, lines := [title] }).close

/-- Parts lines in front of each one with the property `p`: those before the first, and for each
such line the lines that follow it. -/
def blocksAt (p : Text → Bool) : List Text → List Text × List (Text × List Text)
  | [] => ([], [])
  | line :: lines =>
    let (front, blocks) := blocksAt p lines
    if p line then ([], (line, front) :: blocks) else (line :: front, blocks)

/-- No line is lost, and none is in two places. -/
theorem flatten_blocksAt (p : Text → Bool) (lines : List Text) :
    (blocksAt p lines).1 ++ (blocksAt p lines).2.flatMap (fun b => b.1 :: b.2) = lines := by
  induction lines with
  | nil => rfl
  | cons line lines ih =>
    simp only [blocksAt]
    split <;> simp [ih]

/-- The scenarios in the lines behind the narrative. -/
def listOfLines (k : Keywords) (lines : List Text) : List Scenario :=
  match (blocksAt (k.opens .scenario) lines).2 with
  | [] => if lines.all Text.blank then [] else [ofLines k [] lines]
  | blocks => blocks.map fun (line, rest) => ofLines k (k.withoutKeyword .scenario line) rest

end Scenario

/-! ### Stories -/

/-- The story that a text holds. -/
def Story.ofText (k : Keywords) (text : Text) (path? : Option Text := none) : Story :=
  let (front, rest) := (Text.lines text).span fun l => (k.opener? l).isNone
  let (narrative, body) := Narrative.ofLines k rest
  { path?
    description := Text.trim (Text.joinLines front)
    narrative
    scenarios := Scenario.listOfLines k body }

end PlainStory
