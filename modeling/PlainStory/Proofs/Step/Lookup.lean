import Mathlib.Data.List.Induction
import PlainStory.Proofs.Pattern.Cut
import PlainStory.Step.Registry

/-!
# Looking up a step

Among several registries nothing is found for a step exactly if no candidate of any of them matches
what the step says, each registry taking away the starting words of its own keywords.
-/

namespace PlainStory

theorem best_eq_none_iff {α : Type} (better : α → α → Bool) (xs : List α) :
    best better xs = none ↔ xs = [] := by
  constructor
  · intro h
    rcases xs.eq_nil_or_concat with rfl | ⟨ys, y, rfl⟩
    · rfl
    · -- the last element is taken where nothing else was
      rw [List.concat_eq_append, best_concat] at h
      split at h
      · exact absurd h nofun
      · next hb => simp [h] at hb
  · rintro rfl
    rfl

/-- What is best is so under any other name. -/
theorem best_map {α β : Type} {better : α → α → Bool} {better' : β → β → Bool} {f : α → β}
    (hf : ∀ x y, better' (f x) (f y) = better x y) (xs : List α) :
    best better' (xs.map f) = (best better xs).map f := by
  induction xs using List.reverseRecOn with
  | nil => rfl
  | append_singleton xs x ih =>
    rw [List.map_append, List.map_singleton, best_concat, best_concat, ih]
    cases best better xs with
    | none => rfl
    | some y =>
      simp only [Option.map_some, Option.all_some, hf]
      split <;> rfl

namespace Registry

variable {W : Type}

theorem matchesOf_eq_nil_iff (r : Registry W) (step : Text) :
    r.matchesOf step = [] ↔
      ∀ c ∈ r.candidates, c.pattern.isMatch (r.keywords.withoutStartingWord step) = false := by
  simp [matchesOf, List.filterMap_eq_nil_iff, Pattern.isMatch_eq_isSome_values?]

theorem matchesAcross_eq_nil_iff (step : Text) (index : Nat) (registries : List (Registry W)) :
    matchesAcross step index registries = [] ↔ ∀ r ∈ registries, r.matchesOf step = [] := by
  induction registries generalizing index with
  | nil => simp [matchesAcross]
  | cons r registries ih => simp [matchesAcross, ih]

/-- Nothing is found for a step if and only if no candidate matches it. -/
theorem findAcross?_eq_none_iff (registries : List (Registry W)) (step : Text) :
    findAcross? registries step = none ↔
      ∀ r ∈ registries, ∀ c ∈ r.candidates,
        c.pattern.isMatch (r.keywords.withoutStartingWord step) = false := by
  rw [findAcross?, Option.map_eq_none_iff, best_eq_none_iff, matchesAcross_eq_nil_iff]
  simp only [matchesOf_eq_nil_iff]

end Registry

end PlainStory
