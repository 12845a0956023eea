import PlainStory.Text.Word

/-!
# Step patterns

A step pattern is a sequence of pieces: placeholders, runs of blanks, and single characters that
stand for themselves. A placeholder is written as a mark, which the reader of the pattern chooses,
and a name.
-/

namespace PlainStory

/-- A piece of a step pattern. -/
inductive Piece where
  | char (c : Char)
  | blank
  | slot (name : Text)
deriving DecidableEq

namespace Piece

def name? : Piece → Option Text
  | slot name => some name
  | char _ | blank => none

/-- Whether a piece leaves the length of what it takes open. -/
def isOpen : Piece → Bool
  | slot _ | blank => true
  | char _ => false

/-- The pieces of a text whose placeholders begin with `mark`. A mark that no name follows stands for
itself. -/
def ofText (mark : Char) : Text → List Piece
  | [] => []
  | c :: cs =>
    if Text.isBlank c then blank :: ofText mark (cs.dropWhile Text.isBlank)
    else if c = mark ∧ cs.head?.any Text.isWord then
      slot (cs.takeWhile Text.isWord) :: ofText mark (cs.dropWhile Text.isWord)
    else char c :: ofText mark cs
termination_by s => s.length
decreasing_by
  all_goals
    have := fun p => (cs.dropWhile_sublist p).length_le
    grind

/-- The characters that have a meaning of their own in a regular expression. -/
def metacharacters : List Char := "\\.+*?()|[]\x7b\x7d^$#&-~".toList

/-- A piece as a part of a regular expression. What such a part takes is what the piece takes. -/
def source : Piece → Text
  | char c => if c ∈ metacharacters then ['\\', c] else [c]
  | blank => "\\s+"
  | slot _ => "(.*)"

end Piece

structure Pattern where
  /-- The pattern as it was written. -/
  text : Text
  mark : Char
  pieces : List Piece
deriving DecidableEq

/-- A pattern that is too large to be used. -/
structure InvalidPattern where
  pattern : Text
deriving DecidableEq

def InvalidPattern.message (e : InvalidPattern) : Text :=
  "Invalid step pattern `" ++ e.pattern ++
    "`: Compiled regex exceeds size limit of 10485760 bytes."

namespace Pattern

/-- The mark of placeholders where none is chosen. -/
def defaultMark : Char := '$'

/-- The number of placeholders and runs of blanks that a pattern can hold. This approximates a limit on
the size of what an expression is compiled to: the little that single characters take is not counted,
and where exactly the limit lies is not known. -/
def maxOpenPieces : Nat := 16000

def ofText? (mark : Char) (text : Text) : Except InvalidPattern Pattern :=
  let pieces := Piece.ofText mark (Text.trim text)
  if maxOpenPieces < pieces.countP Piece.isOpen then .error ⟨text⟩ else .ok ⟨text, mark, pieces⟩

/-- The names of the placeholders in their order. -/
def names (p : Pattern) : List Text := p.pieces.filterMap Piece.name?

/-- The pattern as a regular expression for whole texts, in which a point stands for any character. It
is there to be shown. Steps are matched by the pieces, and `Pattern.values?_iff_source` says that this
is what the expression does. -/
def source (p : Pattern) : Text := "(?s)^" ++ p.pieces.flatMap Piece.source ++ "$"

end Pattern

end PlainStory
