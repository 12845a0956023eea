import PlainStory.Examples.Row

/-!
# Substitution

A token is the name of a column between angle brackets. Substituting a row into a text replaces each
token that names one of its columns by the value there, in a single pass from left to right.
-/

namespace PlainStory.Row

/-- Whether a character can stand in the name of a token. -/
def isNameChar (c : Char) : Bool := c ≠ '<' && c ≠ '>' && !Text.isBlank c

/-- The name of a token whose opening bracket is just before `s`, and what follows the token. -/
def token? (s : Text) : Option (Text × Text) :=
  match s.takeWhile isNameChar, s.dropWhile isNameChar with
  | c :: cs, '>' :: rest => some (c :: cs, rest)
  | _, _ => none

theorem token?_eq_some {s name rest : Text} (h : token? s = some (name, rest)) :
    s = name ++ '>' :: rest := by
  unfold token? at h
  split at h
  · next c cs r ht hd =>
    simp only [Option.some.injEq, Prod.mk.injEq] at h
    obtain ⟨rfl, rfl⟩ := h
    rw [← ht, ← hd, List.takeWhile_append_dropWhile]
  · simp at h

/-- The text of a token once the row is substituted. -/
def valueOfToken (r : Row) (name : Text) : Text := (r.get? name).getD ('<' :: name ++ ['>'])

/-- The text with every token that names a column replaced by its value. -/
def substitute (r : Row) : Text → Text
  | [] => []
  | c :: cs =>
    if c = '<' then
      match _h : token? cs with
      | some (name, rest) => r.valueOfToken name ++ substitute r rest
      | none => c :: substitute r cs
    else c :: substitute r cs
termination_by s => s.length
decreasing_by
  · simp only [token?_eq_some _h, List.length_cons, List.length_append]
    omega
  · simp
  · simp

end PlainStory.Row
