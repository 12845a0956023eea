import PlainStory.Keyword.Basic

/-!
# Starting words

A step begins with one of four starting words, which counts only when a blank or the end of the text
follows it. The word gives the type of the step and is no part of what the step says.
-/

namespace PlainStory.Keywords

variable (k : Keywords)

/-- The starting words, in the order in which they are tried. -/
def startingWords : List Text :=
  [Keyword.precondition, .action, .outcome, .continuation].map k.token

/-- Whether a text ends here or goes on with a blank. -/
def atWordEnd : Text → Bool
  | [] => true
  | c :: _ => Text.isBlank c

/-- Whether a step begins with the given starting word. -/
def beginsWith (step word : Text) : Bool :=
  match Text.after? word (Text.trimStart step) with
  | some rest => atWordEnd rest
  | none => false

def startingWord? (step : Text) : Option Text := k.startingWords.find? (beginsWith step)

/-- What a step says: the text after its starting word and the blanks that follow. -/
def withoutStartingWord (step : Text) : Text :=
  let step := Text.trimStart step
  match k.startingWord? step with
  | some word => Text.trimStart (step.drop word.length)
  | none => step

/-- The type a starting word stands for. The word that continues a step stands for the type of the
step before it. -/
def typeOf? (step : Text) (previous : Option StepType) : Option StepType :=
  match k.startingWord? step with
  | none => none
  | some word =>
    if word = k.token .precondition then some .precondition
    else if word = k.token .action then some .action
    else if word = k.token .outcome then some .outcome
    else previous

/-- Whether a step is a comment, which is reported and never carried out. -/
def isComment (step : Text) : Bool := Text.startsWith (k.token .comment) (Text.trimStart step)

def startsStep (line : Text) : Bool := (k.startingWord? line).isSome || k.isComment line

end PlainStory.Keywords
