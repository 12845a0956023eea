import PlainStory.Text.Basic

/-!
# Coloring

When reports are coloured: on a terminal, always, or never.
-/

namespace PlainStory

inductive Coloring where
  | auto
  | always
  | never
deriving DecidableEq

namespace Coloring

/-- A word that names no way of coloring. -/
inductive Unknown where
  | unknown
deriving DecidableEq

def Unknown.message : Unknown → Text
  | unknown => "possible options: auto, always, never"

/-- The way of coloring that a word names, in whatever case. -/
def ofText? (word : Text) : Except Unknown Coloring :=
  let word := Text.asciiLower word
  if word = "auto" then .ok auto
  else if word = "always" then .ok always
  else if word = "never" then .ok never
  else .error .unknown

/-- Whether an output that is no terminal is coloured. -/
def isPainted : Coloring → Bool
  | always => true
  | auto | never => false

end Coloring

end PlainStory
