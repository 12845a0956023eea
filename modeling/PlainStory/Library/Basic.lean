import PlainStory.Text.Basic

/-!
# Libraries

A library holds story texts by their paths. The text registered last for a path is the one that
counts.
-/

namespace PlainStory

/-- Why a story text could not be loaded. -/
inductive LoadError where
  | notFound (path : Text)
  | unreadable (path cause : Text)
deriving DecidableEq

namespace LoadError

def path : LoadError → Text
  | notFound path => path
  | unreadable path _ => path

def message : LoadError → Text
  | notFound path => "Story `" ++ path ++ "` not found"
  | unreadable path cause => "Failed to read story `" ++ path ++ "`: " ++ cause

end LoadError

/-- Story texts by their paths. -/
structure Library where
  stories : List (Text × Text) := []

namespace Library

def register (l : Library) (path text : Text) : Library := ⟨(path, text) :: l.stories⟩

def ofPairs (pairs : List (Text × Text)) : Library :=
  pairs.foldl (fun l p => l.register p.1 p.2) {}

def get? (l : Library) (path : Text) : Option Text := l.stories.lookup path

theorem get?_register (l : Library) (path text other : Text) :
    (l.register path text).get? other = if other = path then some text else l.get? other := by
  by_cases h : other = path
  · simp [get?, register, h]
  · rw [get?, register, List.lookup_cons, beq_false_of_ne h, if_neg h, get?]

def paths (l : Library) : List Text := l.stories.map Prod.fst

theorem mem_paths_of_get? {l : Library} {path text : Text} (h : l.get? path = some text) :
    path ∈ l.paths := by
  obtain ⟨stories⟩ := l
  simp only [get?, paths] at *
  induction stories with
  | nil => simp at h
  | cons s ss ih =>
    obtain ⟨name, content⟩ := s
    by_cases hs : path = name
    · simp [hs]
    · rw [List.lookup_cons, beq_false_of_ne hs] at h
      simp [ih h]

def load (l : Library) (path : Text) : Except LoadError Text :=
  match l.get? path with
  | some text => .ok text
  | none => .error (.notFound path)

end Library

end PlainStory
