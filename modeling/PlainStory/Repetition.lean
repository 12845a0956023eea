import Std.Data.HashSet

/-!
# Repetition

Which elements of a list repeat an earlier one, and a list without those. The keys of the elements
seen so far are kept in a hash set, so that the work grows with the length of the list alone.
`markRepeated_concat` and `distinctBy_cons` say what comes out without speaking of the set.
-/

namespace PlainStory

variable {α κ : Type} [BEq κ] [Hashable κ] (key : α → κ)

/-! ### Marking -/

/-- Pairs each element with whether its key is in `seen` or that of an earlier element. -/
def markRepeatedFrom (seen : Std.HashSet κ) : List α → List (α × Bool)
  | [] => []
  | x :: xs => (x, seen.contains (key x)) :: markRepeatedFrom (seen.insert (key x)) xs

/-- Pairs each element of a list with whether an earlier one has the same key. -/
def markRepeated (xs : List α) : List (α × Bool) := markRepeatedFrom key ∅ xs

theorem markRepeatedFrom_concat [LawfulBEq κ] (seen : Std.HashSet κ) (xs : List α) (x : α) :
    markRepeatedFrom key seen (xs ++ [x]) =
      markRepeatedFrom key seen xs ++
        [(x, seen.contains (key x) || (xs.map key).contains (key x))] := by
  induction xs generalizing seen with
  | nil => simp [markRepeatedFrom]
  | cons y ys ih =>
    simp only [List.cons_append, markRepeatedFrom, ih, Std.HashSet.contains_insert, List.map_cons,
      List.contains_cons]
    rw [BEq.comm (a := key y), Bool.or_left_comm, Bool.or_assoc]

@[simp] theorem markRepeated_nil : markRepeated key [] = [] := rfl

theorem markRepeated_concat [LawfulBEq κ] (xs : List α) (x : α) :
    markRepeated key (xs ++ [x]) =
      markRepeated key xs ++ [(x, (xs.map key).contains (key x))] := by
  simp [markRepeated, markRepeatedFrom_concat]

/-! ### Leaving out -/

/-- The elements whose keys are neither in `seen` nor those of earlier ones. -/
def distinctFrom (seen : Std.HashSet κ) (xs : List α) : List α :=
  (markRepeatedFrom key seen xs).filterMap fun (x, repeated) => if repeated then none else some x

/-- The elements of a list without those that have the key of an earlier one. -/
def distinctBy (xs : List α) : List α := distinctFrom key ∅ xs

theorem distinctFrom_cons (seen : Std.HashSet κ) (x : α) (xs : List α) :
    distinctFrom key seen (x :: xs) =
      if seen.contains (key x) then distinctFrom key (seen.insert (key x)) xs
      else x :: distinctFrom key (seen.insert (key x)) xs := by
  by_cases h : seen.contains (key x) <;> simp [distinctFrom, markRepeatedFrom, h]

theorem distinctFrom_eq_filter [LawfulBEq κ] (seen : Std.HashSet κ) (xs : List α) :
    distinctFrom key seen xs = (distinctBy key xs).filter fun x => !seen.contains (key x) := by
  induction xs generalizing seen with
  | nil => rfl
  | cons x xs ih =>
    have : ∀ y, (!(key x == key y || seen.contains (key y))) =
        (!seen.contains (key y) && !(key x == key y)) := by
      intro y
      rw [Bool.not_or, Bool.and_comm]
    rw [distinctBy, distinctFrom_cons, distinctFrom_cons, ih, ih]
    by_cases h : seen.contains (key x) <;>
      simp [Std.HashSet.contains_insert, List.filter_filter, h, this]

@[simp] theorem distinctBy_nil : distinctBy key [] = [] := rfl

theorem distinctBy_cons [LawfulBEq κ] (x : α) (xs : List α) :
    distinctBy key (x :: xs) = x :: (distinctBy key xs).filter fun y => !(key x == key y) := by
  rw [distinctBy, distinctFrom_cons, distinctFrom_eq_filter]
  simp [Std.HashSet.contains_insert]

theorem nodup_map_distinctBy [LawfulBEq κ] (xs : List α) :
    ((distinctBy key xs).map key).Nodup := by
  induction xs with
  | nil => simp
  | cons x xs ih =>
    rw [distinctBy_cons, List.map_cons, List.nodup_cons]
    refine ⟨?_, (List.filter_sublist.map key).nodup ih⟩
    simp only [List.mem_map, List.mem_filter, Bool.not_eq_true', beq_eq_false_iff_ne]
    rintro ⟨y, ⟨-, hy⟩, h⟩
    exact hy h.symm

end PlainStory
