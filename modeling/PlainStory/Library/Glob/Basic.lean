import PlainStory.Text.Basic

/-!
# Globs

A glob describes paths, in which slashes part the names of directories and files. A star takes any
part of a name, a question mark any byte of one, brackets a byte of a class, which may be a slash, two
stars that stand by themselves between slashes any number of names, and braces one of several
alternatives. ASCII letters match in either case.
-/

namespace PlainStory

inductive GlobError where
  | unclosedClass
  | invalidRange (low high : Char)
  | unopenedGroup
  | unclosedGroup
  | danglingEscape
deriving DecidableEq

def GlobError.message : GlobError → Text
  | unclosedClass => "unclosed character class; missing ']'"
  | invalidRange low high => "invalid range; '" ++ [low] ++ "' > '" ++ [high] ++ "'"
  | unopenedGroup =>
    "unopened alternate group; missing '\x7b' (maybe escape '\x7d' with '[\x7d]'?)"
  | unclosedGroup =>
    "unclosed alternate group; missing '\x7d' (maybe escape '\x7b' with '[\x7b]'?)"
  | danglingEscape => "dangling '\\'"

/-- A part of a glob. -/
inductive GlobPart where
  | char (c : Char)
  | anyByte
  | anyOf (negated : Bool) (ranges : List (Char × Char))
  /-- A part of a name. -/
  | star
  /-- Any number of names, each with a slash behind it, at the start of a path. -/
  | leadingNames
  /-- A slash and whatever follows it. -/
  | trailingNames
  /-- A slash, or any number of names between two of them. -/
  | innerNames
  | group (branches : List (List GlobPart))

end PlainStory
