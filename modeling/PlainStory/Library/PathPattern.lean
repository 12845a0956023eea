import PlainStory.Library.Glob.Match
import PlainStory.Library.Glob.Nesting
import PlainStory.Library.Glob.Reader

/-!
# Patterns for paths

A pattern selects files by their paths below a directory. It is a glob that can bear marks at its two
ends, and that is meant for any depth when it is a mere name.
-/

namespace PlainStory

/-- A glob as a pattern for paths below a directory. -/
structure PathPattern where
  /-- The parts that a path has to consist of; without them the pattern selects no files. -/
  parts? : Option (List GlobPart)

/-- Why a text is no pattern. -/
inductive PathPatternError where
  /-- The pattern, trimmed at its end, is no glob. -/
  | malformed (pattern : Text) (cause : GlobError)
  /-- The glob nests too deeply. -/
  | tooDeep
deriving DecidableEq

def PathPatternError.message : PathPatternError → Text
  | malformed pattern cause => "error parsing glob '" ++ pattern ++ "': " ++ cause.message
  | tooDeep => "error parsing pattern 0"

namespace PathPattern

/-- A pattern without the blanks at its end, unless the last one is escaped. -/
def trimmed (s : Text) : Text :=
  if Text.startsWith [' ', '\\'] s.reverse then s else Text.trimEnd s

def endsWith (ending s : Text) : Bool := Text.startsWith ending.reverse s.reverse

/-- A pattern without the mark at its start that excludes what it matches, or that lets it match from
the top only; and whether those were there. -/
def withoutMarks (s : Text) : Text × Bool × Bool :=
  match s with
  | '\\' :: '!' :: _ | '\\' :: '#' :: _ => (s.drop 1, false, false)
  | _ =>
    let (s, excluding) := if Text.startsWith "!" s then (s.drop 1, true) else (s, false)
    if Text.startsWith "/" s then (s.drop 1, excluding, true) else (s, excluding, false)

/-- A pattern without the slash at its end, which makes it match directories only; and whether it was
there. -/
def withoutLastSlash (s : Text) : Text × Bool :=
  if endsWith "/" s then
    let s := s.dropLast
    (if endsWith "\\" s then s.dropLast else s, true)
  else (s, false)

/-- The glob for a whole path: a name matches at any depth, and two stars at the end match only what
is inside of a directory. -/
def wholePath (s : Text) (fromTop : Bool) : Text :=
  let s :=
    if fromTop || s.contains '/' || s = "**" then s
    else "**/" ++ s
  if endsWith "/**" s then s ++ "/*" else s

/-- The pattern that a text stands for. A single star stands for what is at the top; nothing is
selected by a text that is blank or a comment, or that excludes what it matches or is for directories
only. -/
def ofText? (s : Text) : Except PathPatternError PathPattern :=
  let s : Text := if s = "*" then "/*" else s
  if Text.startsWith "#" s then .ok ⟨none⟩
  else
    let line := trimmed s
    if line = [] then .ok ⟨none⟩
    else
      let (s, excluding, fromTop) := withoutMarks line
      let (s, onlyDirectories) := withoutLastSlash s
      match Glob.parse? (wholePath s fromTop) with
      | .error e => .error (.malformed line e)
      | .ok parts =>
        if Glob.isTooDeep parts then .error .tooDeep
        else .ok ⟨if excluding || onlyDirectories then none else some parts⟩

def selects (p : PathPattern) (path : Text) : Bool :=
  p.parts?.any fun parts => Glob.accepts parts (Text.bytes path)

end PathPattern

end PlainStory
