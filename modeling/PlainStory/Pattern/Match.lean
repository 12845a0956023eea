import PlainStory.Pattern.Basic

/-!
# Matching steps against patterns

A step matches a pattern when it can be cut into parts, one for each piece: its own character for a
character, some blanks for a run of blanks, anything for a placeholder. Of all such cuts `fit` takes
the one in which each part, from left to right, is as long as the rest allows.

`fitAll` computes `fit` for all suffixes of a text at once, and `fitAll_eq` says so. `cut?` compares the
characters that a pattern starts with one by one and leaves the rest to `fitAll`; it equals `fit` as
`cut?_eq_fit` says, and is what `Pattern.values?` runs. The work is at most the number of pieces times
the length of the text, and no more than either of them where a pattern has no other pieces.
-/

namespace PlainStory

namespace Piece

/-- Cuts off the longest part of characters in `p` behind which `next` can cut the rest. -/
def longest (p : Char → Bool) (next : Text → Option (List Text)) : Text → Option (List Text)
  | [] => (next []).map ([] :: ·)
  | c :: cs =>
    match if p c then longest p next cs else none with
    | some parts => some (Text.consFirst c parts)
    | none => (next (c :: cs)).map ([] :: ·)

/-- What one piece followed by others, which `next` cuts, makes of a text. -/
def step (next : Text → Option (List Text)) : Piece → Text → Option (List Text)
  | char _, [] => none
  | char c, d :: cs => if d = c then (next cs).map ([c] :: ·) else none
  | blank, [] => none
  | blank, c :: cs =>
    if Text.isBlank c then (longest Text.isBlank next cs).map (Text.consFirst c) else none
  | slot _, cs => longest (fun _ => true) next cs

/-- The cut of a text into parts for the given pieces that is greedy from left to right. -/
def fit : List Piece → Text → Option (List Text)
  | [], [] => some []
  | [], _ :: _ => none
  | p :: ps, cs => p.step (fit ps) cs

/-! ### All suffixes at once -/

/-- The values of a function at all suffixes of a text, the text itself first. -/
def overSuffixes {α : Type} (f : Text → α) : Text → List α
  | [] => [f []]
  | c :: cs => f (c :: cs) :: overSuffixes f cs

theorem head?_overSuffixes {α : Type} (f : Text → α) (s : Text) :
    (overSuffixes f s).head? = some (f s) := by
  cases s <;> rfl

/-- `longest` at all suffixes, from the values of `next` there. -/
def longestAll (p : Char → Bool) : Text → List (Option (List Text)) → List (Option (List Text))
  | [], nexts => [(nexts.head?.join).map ([] :: ·)]
  | c :: cs, nexts =>
    let below := longestAll p cs nexts.tail
    let here :=
      match if p c then below.head?.join else none with
      | some parts => some (Text.consFirst c parts)
      | none => (nexts.head?.join).map ([] :: ·)
    here :: below

/-- A character piece at all suffixes, from the values of what follows there. -/
def charAll (c : Char) : Text → List (Option (List Text)) → List (Option (List Text))
  | [], _ => [none]
  | d :: cs, nexts =>
    (if d = c then (nexts.tail.head?.join).map ([c] :: ·) else none) :: charAll c cs nexts.tail

/-- A run of blanks at all suffixes, from the longest runs of blanks there. -/
def blankAll : Text → List (Option (List Text)) → List (Option (List Text))
  | [], _ => [none]
  | c :: cs, runs =>
    (if Text.isBlank c then (runs.tail.head?.join).map (Text.consFirst c) else none) ::
      blankAll cs runs.tail

def stepAll (s : Text) (nexts : List (Option (List Text))) : Piece → List (Option (List Text))
  | char c => charAll c s nexts
  | blank => blankAll s (longestAll Text.isBlank s nexts)
  | slot _ => longestAll (fun _ => true) s nexts

/-- The cuts of all suffixes of a text, the text itself first. -/
def fitAll (ps : List Piece) (s : Text) : List (Option (List Text)) :=
  ps.foldr (fun p nexts => stepAll s nexts p) (s.map (fun _ => none) ++ [some []])

theorem longestAll_overSuffixes (p : Char → Bool) (next : Text → Option (List Text)) (s : Text) :
    longestAll p s (overSuffixes next s) = overSuffixes (longest p next) s := by
  induction s with
  | nil => simp [longestAll, overSuffixes, longest]
  | cons c cs ih => simp [longestAll, overSuffixes, longest, ih, head?_overSuffixes]

theorem charAll_overSuffixes (c : Char) (next : Text → Option (List Text)) (s : Text) :
    charAll c s (overSuffixes next s) = overSuffixes (step next (char c)) s := by
  induction s with
  | nil => rfl
  | cons d cs ih => simp [charAll, overSuffixes, step, ih, head?_overSuffixes]

theorem blankAll_overSuffixes (next : Text → Option (List Text)) (s : Text) :
    blankAll s (overSuffixes (longest Text.isBlank next) s) = overSuffixes (step next blank) s := by
  induction s with
  | nil => rfl
  | cons c cs ih => simp [blankAll, overSuffixes, step, ih, head?_overSuffixes]

theorem stepAll_overSuffixes (next : Text → Option (List Text)) (s : Text) (p : Piece) :
    stepAll s (overSuffixes next s) p = overSuffixes (step next p) s := by
  cases p with
  | char c => exact charAll_overSuffixes c next s
  | blank => rw [stepAll, longestAll_overSuffixes, blankAll_overSuffixes]
  | slot n =>
    have : step next (slot n) = longest (fun _ => true) next := by funext s; cases s <;> rfl
    rw [stepAll, longestAll_overSuffixes, this]

theorem fitAll_eq (ps : List Piece) (s : Text) : fitAll ps s = overSuffixes (fit ps) s := by
  induction ps with
  | nil =>
    induction s with
    | nil => rfl
    | cons c cs ih => simpa [fitAll, overSuffixes, fit] using ih
  | cons p ps ih =>
    have : fit (p :: ps) = step (fit ps) p := by funext s; cases s <;> rfl
    rw [this, ← stepAll_overSuffixes, ← ih]
    rfl

/-- The cut of a text into parts for the given pieces that is greedy from left to right. -/
def cut? : List Piece → Text → Option (List Text)
  | char c :: ps, d :: cs => if d = c then (cut? ps cs).map ([c] :: ·) else none
  | ps, cs => (fitAll ps cs).head?.join

theorem cut?_eq_fit (ps : List Piece) (s : Text) : cut? ps s = fit ps s := by
  fun_induction cut? ps s with
  | case1 c ps cs ih => simp [fit, step, ih]
  | case2 c ps d cs h => simp [fit, step, h]
  | case3 => simp [fitAll_eq, head?_overSuffixes]

end Piece

namespace Pattern

/-- The greedy cut of a trimmed step into one part for each piece. -/
def parts? (p : Pattern) (step : Text) : Option (List Text) :=
  Piece.cut? p.pieces (Text.trim step)

theorem parts?_eq_fit (p : Pattern) (step : Text) :
    p.parts? step = Piece.fit p.pieces (Text.trim step) :=
  Piece.cut?_eq_fit p.pieces (Text.trim step)

def isMatch (p : Pattern) (step : Text) : Bool := (p.parts? step).isSome

/-- The parts that fall to placeholders. -/
def slotParts (pieces : List Piece) (parts : List Text) : List Text :=
  (pieces.zip parts).filterMap fun (piece, part) => piece.name?.map fun _ => part

/-- The trimmed values of the placeholders in a step, if it matches. -/
def values? (p : Pattern) (step : Text) : Option (List Text) :=
  (p.parts? step).map fun parts => (slotParts p.pieces parts).map Text.trim

end Pattern

end PlainStory
