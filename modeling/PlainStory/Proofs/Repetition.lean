import PlainStory.Repetition

/-!
# Laws of repetition

What `distinctBy` leaves of a list that grows at its end. The keys of what it leaves are those that
`List.eraseDups` leaves of all the keys.
-/

namespace PlainStory

variable {α κ : Type} [BEq κ] [LawfulBEq κ] [Hashable κ] (key : α → κ)

/-- An element at the end is left out exactly if its key is that of an earlier one. -/
theorem distinctBy_concat (xs : List α) (x : α) :
    distinctBy key (xs ++ [x]) =
      distinctBy key xs ++ if key x ∈ xs.map key then [] else [x] := by
  have hmarked : ∀ ys : List α, distinctBy key ys =
      (markRepeated key ys).filterMap fun y => if y.2 then none else some y.1 := fun _ => rfl
  rw [hmarked, markRepeated_concat, List.filterMap_append, ← hmarked]
  by_cases h : key x ∈ xs.map key
  · have hc : (xs.map key).contains (key x) = true := List.contains_iff_mem.2 h
    rw [hc, if_pos h]
    rfl
  · have hc : (xs.map key).contains (key x) = false := by
      rw [← Bool.not_eq_true, List.contains_iff_mem]
      exact h
    rw [hc, if_neg h]
    rfl

theorem mem_of_mem_distinctBy {xs : List α} {x : α} (h : x ∈ distinctBy key xs) : x ∈ xs := by
  induction xs with
  | nil => exact h
  | cons y ys ih =>
    rw [distinctBy_cons] at h
    rcases List.mem_cons.1 h with rfl | h
    · exact List.mem_cons_self
    · exact List.mem_cons_of_mem y (ih (List.mem_filter.1 h).1)

/-- It makes no difference whether some keys are taken away before or after. -/
theorem filter_distinctBy (p : κ → Bool) (xs : List α) :
    (distinctBy key xs).filter (fun x => p (key x)) =
      distinctBy key (xs.filter fun x => p (key x)) := by
  induction xs with
  | nil => rfl
  | cons x xs ih =>
    rw [distinctBy_cons, List.filter_cons, List.filter_cons]
    cases hp : p (key x) with
    | true =>
      rw [if_pos rfl, if_pos rfl, distinctBy_cons, ← ih, List.filter_filter, List.filter_filter]
      simp only [Bool.and_comm]
    | false =>
      rw [if_neg Bool.false_ne_true, if_neg Bool.false_ne_true, List.filter_filter, ← ih]
      -- what is kept has another key than the element that is not
      refine List.filter_congr fun y _ => ?_
      cases hy : p (key y) with
      | false => rfl
      | true =>
        have hne : (key x == key y) = false := by
          rw [beq_eq_false_iff_ne]
          intro he
          rw [he, hy] at hp
          cases hp
        rw [hne]
        rfl

theorem map_distinctBy (xs : List α) : (distinctBy key xs).map key = (xs.map key).eraseDups := by
  -- `eraseDups` takes a key away from what follows before it goes on, so the induction is on the
  -- length.
  induction hn : xs.length using Nat.strongRecOn generalizing xs with
  | _ n ih =>
    cases xs with
    | nil => rfl
    | cons x xs =>
      have hlt : (xs.filter fun y => !(key x == key y)).length < n := by
        have hle := List.length_filter_le (fun y => !(key x == key y)) xs
        rw [List.length_cons] at hn
        omega
      have hkeys : ((xs.map key).filter fun k => !(k == key x)) =
          (xs.filter fun y => !(key x == key y)).map key := by
        rw [List.filter_map]
        refine congrArg _ (List.filter_congr fun y _ => ?_)
        rw [Function.comp_apply, BEq.comm]
      rw [distinctBy_cons, filter_distinctBy key fun k => !(key x == k), List.map_cons,
        ih _ hlt _ rfl, List.map_cons, List.eraseDups_cons, hkeys]

end PlainStory
