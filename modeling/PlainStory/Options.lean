import PlainStory.Settings

/-!
# Command line options

The options of a run on a command line. A value is part of the argument that names its option, behind
an equals sign, or is the argument that follows it. A value in an argument of its own is looked at
once the next option or the end of the arguments is reached.
-/

namespace PlainStory

/-- The options of a run; one that is not given leaves its setting as it is. -/
structure Options where
  dryRun : Bool := false
  failOnPending : Bool := false
  absorbFailures : Bool := false
  mark : Option Char := none
  color : Option Coloring := none
deriving DecidableEq

/-- Why arguments do not give options. -/
inductive OptionsError where
  | unknownArgument
  | missingValue
  | invalidValue
  | repeated
  | unexpectedValue
  | helpRequested
deriving DecidableEq

namespace Options

/-- Changes settings as the options say. -/
def apply (o : Options) (s : Settings) : Settings :=
  { s with
    dryRun := o.dryRun || s.dryRun
    onPending := if o.failOnPending then .rethrow else s.onPending
    onError := if o.absorbFailures then .absorb else s.onError
    mark := o.mark.getD s.mark
    coloring := o.color.getD s.coloring }

/-- The options that have a value. -/
inductive Valued where
  | mark
  | color
deriving DecidableEq

/-- What an argument can name. -/
inductive Name where
  | dryRun
  | failOnPending
  | absorbFailures
  | help
  | valued (v : Valued)
deriving DecidableEq

def Name.all : List (Text × Name) :=
  [("dry-run", dryRun), ("fail-on-pending", failOnPending), ("absorb-failures", absorbFailures),
    ("help", help), ("parameter-prefix", valued .mark), ("color", valued .color)]

/-- Options while their arguments are being read. -/
structure Draft where
  options : Options := {}
  /-- The option named last whose value is still to come or to be looked at. -/
  waiting : Option (Valued × Option Text) := none
  /-- Whether no more options can follow. -/
  ended : Bool := false

/-- Switches a flag on that must not be on already. -/
def switchOn (isOn : Bool) (o : Options) : Except OptionsError Options :=
  if isOn then .error .repeated else .ok o

def setValue (o : Options) (value : Text) : Valued → Except OptionsError Options
  | .mark =>
    if o.mark.isSome then .error .repeated
    else
      match value with
      | [c] => .ok { o with mark := some c }
      | _ => .error .invalidValue
  | .color =>
    if o.color.isSome then .error .repeated
    else
      match Coloring.ofText? value with
      | .ok c => .ok { o with color := some c }
      | .error _ => .error .invalidValue

/-- Looks at the value that is waiting. -/
def Draft.settle (d : Draft) : Except OptionsError Draft :=
  match d.waiting with
  | none => .ok d
  | some (_, none) => .error .missingValue
  | some (v, some value) => do
    let options ← setValue d.options value v
    return { d with options, waiting := none }

/-- Takes a name without value into account. -/
def Draft.addName (d : Draft) (n : Name) : Except OptionsError Draft := do
  let d ← d.settle
  let o := d.options
  let set := fun options : Options => { d with options }
  match n with
  | .dryRun => (switchOn o.dryRun { o with dryRun := true }).map set
  | .failOnPending => (switchOn o.failOnPending { o with failOnPending := true }).map set
  | .absorbFailures => (switchOn o.absorbFailures { o with absorbFailures := true }).map set
  | .help => .error .helpRequested
  | .valued v => .ok { d with waiting := some (v, none) }

/-- Takes a name with its value into account. -/
def Draft.addNameWithValue (d : Draft) (n : Name) (value : Text) : Except OptionsError Draft :=
  match n with
  | .valued v => do
    let d ← d.settle
    let options ← setValue d.options value v
    return { d with options }
  | .dryRun | .failOnPending | .absorbFailures | .help => .error .unexpectedValue

/-- Takes a value in an argument of its own into account. -/
def Draft.addValue (d : Draft) (value : Text) : Except OptionsError Draft :=
  match d.waiting with
  | some (v, none) => .ok { d with waiting := some (v, some value) }
  | some (_, some _) | none => .error .unknownArgument

/-- Takes an argument behind two dashes into account. -/
def Draft.addLong (d : Draft) (s : Text) : Except OptionsError Draft :=
  let name := s.takeWhile (· ≠ '=')
  match Name.all.lookup name, s.dropWhile (· ≠ '=') with
  | none, _ => .error .unknownArgument
  | some n, [] => d.addName n
  | some n, _ :: value => d.addNameWithValue n value

def Draft.addArgument (d : Draft) (arg : Text) : Except OptionsError Draft :=
  if d.ended then .error .unknownArgument
  else
    match arg with
    | ['-', '-'] => .ok { d with ended := true }
    | '-' :: '-' :: s => d.addLong s
    | '-' :: 'h' :: _ => d.addName .help
    | '-' :: _ :: _ => .error .unknownArgument
    | s => d.addValue s

/-- The options that arguments give. -/
def ofArguments? (args : List Text) : Except OptionsError Options := do
  let d ← args.foldlM Draft.addArgument {}
  return (← d.settle).options

end Options

end PlainStory
