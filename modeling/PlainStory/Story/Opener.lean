import PlainStory.Keyword.StartingWord

/-!
# Openers

A line of a story text opens a part of the story when a keyword stands at its start, blanks aside.
-/

namespace PlainStory

/-- The kinds of lines that open a part of a story. -/
inductive Opener where
  | scenario
  | narrative
  | givenStories
  | examples
  | step
deriving DecidableEq

/-- Whether an opener opens a part of a scenario. -/
def Opener.isWithinScenario : Opener → Bool
  | scenario | narrative => false
  | givenStories | examples | step => true

namespace Keywords

variable (k : Keywords)

/-- What a line opens, if anything; of two keywords that it starts with the first listed here wins. -/
def opener? (line : Text) : Option Opener :=
  let line := Text.trimStart line
  let starts := fun w => Text.startsWith (k.token w) line
  if starts .scenario then some .scenario
  else if starts .narrative then some .narrative
  else if starts .givenStories then some .givenStories
  else if starts .examples then some .examples
  else if k.startsStep line then some .step
  else none

def opens (o : Opener) (line : Text) : Bool := k.opener? line = some o

/-- Whether a line opens a part of a scenario. -/
def opensWithinScenario (line : Text) : Bool := (k.opener? line).any Opener.isWithinScenario

/-- What a text says after the keyword at its start. -/
def withoutKeyword (w : Keyword) (s : Text) : Text :=
  let s := Text.trimStart s
  (Text.after? (k.token w) s).getD s

end Keywords

end PlainStory
