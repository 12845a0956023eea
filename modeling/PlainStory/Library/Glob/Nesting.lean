import PlainStory.Library.Glob.Match

/-!
# Nesting of globs

Written as a regular expression over bytes, a glob nests. A group is a level, and so is a choice
between several branches, a row of several expressions, a repetition, a class of bytes, and a list of
several entries in a class. There is a limit to the number of levels.
-/

namespace PlainStory.Glob

/-- How many expressions stand side by side, and how many levels the deepest of them has. -/
structure Extent where
  width : Nat
  depth : Nat

/-- The levels once several expressions side by side have become one. -/
def Extent.levels (e : Extent) : Nat := if 1 < e.width then e.depth + 1 else e.depth

def Extent.beside (e f : Extent) : Extent := ⟨e.width + f.width, max e.depth f.depth⟩

mutual

/-- The extent of the expressions for a part. A void group needs none. -/
def extentOf : GlobPart → Extent
  | .char c => ⟨(String.utf8EncodeChar c).length, 0⟩
  | .anyByte => ⟨1, 1⟩
  | .anyOf _ ranges => ⟨1, (Extent.mk (ranges.flatMap byteRanges).length 1).levels⟩
  -- a repetition of a class
  | .star => ⟨1, 2⟩
  -- a group of a choice between an optional slash and a row of any bytes and a slash
  | .leadingNames => ⟨1, 4⟩
  -- a slash beside a repetition of any byte
  | .trailingNames => ⟨2, 1⟩
  -- a group of a choice between a slash and a row of any bytes between two slashes
  | .innerNames => ⟨1, 4⟩
  | .group branches =>
    let e := extentOfBranches branches
    if e.width = 0 then ⟨0, 0⟩ else ⟨1, e.levels + 1⟩

def extentOfRow : List GlobPart → Extent
  | [] => ⟨0, 0⟩
  | p :: ps => (extentOf p).beside (extentOfRow ps)

/-- The extent of the branches of a group, each of which is one expression. A void branch is left
out. -/
def extentOfBranches : List (List GlobPart) → Extent
  | [] => ⟨0, 0⟩
  | b :: bs =>
    let e := extentOfRow b
    let others := extentOfBranches bs
    if e.width = 0 then others else (Extent.mk 1 e.levels).beside others

end

/-- The levels that the expression for a whole path can have. -/
def maxLevels : Nat := 250

/-- Whether the expression for a whole path, a row that also names the two ends of the path, has more
levels than it can have. -/
def isTooDeep (parts : List GlobPart) : Bool := maxLevels < (extentOfRow parts).depth + 1

end PlainStory.Glob
