import PlainStory.Repetition
import PlainStory.Text.Basic

/-!
# Pattern variants

A pattern can hold directives, lists of alternatives between braces with bars between them. Such a
pattern stands for all the patterns that come from choosing an alternative of each directive.
-/

namespace PlainStory.Variants

/-- The texts before, inside and after the first directive. -/
def directive? (s : Text) : Option (Text × Text × Text) := do
  let (front, rest) ← Text.cut? ['{'] s
  let (inside, rest) ← Text.cut? ['}'] rest
  return (front, inside, rest)

theorem length_of_directive? {s front inside rest : Text}
    (h : directive? s = some (front, inside, rest)) : rest.length < s.length := by
  simp only [directive?, Option.bind_eq_bind, Option.bind_eq_some_iff, Prod.exists, Option.pure_def,
    Option.some.injEq, Prod.mk.injEq] at h
  obtain ⟨f, r, hf, i, t, ht, rfl, rfl, rfl⟩ := h
  have := Text.length_of_cut? hf
  have := Text.length_of_cut? ht
  simp only [List.length_singleton] at *
  omega

/-- Continues each of the given texts with all the choices for the directives of `s`. -/
def continueWith (done : List Text) (s : Text) : List Text :=
  match _h : directive? s with
  | none => done.map (· ++ s)
  | some (front, inside, rest) =>
    continueWith (done.flatMap fun d => (Text.splitAt '|' inside).map fun o => d ++ front ++ o) rest
termination_by s.length
decreasing_by exact length_of_directive? _h

/-- The patterns that a pattern stands for, with narrow blanks, each once: the choices for its
directives in order, those for the first one changing slowest. -/
def expand (pattern : Text) : List Text :=
  distinctBy id ((continueWith [[]] pattern).map Text.squeeze)

end PlainStory.Variants
