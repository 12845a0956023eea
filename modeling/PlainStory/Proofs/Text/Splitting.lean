import PlainStory.Proofs.Text.Basic

/-!
# Splitting at a separator

Splitting a text at a separator against joining texts with it. The texts of a join come apart where
they were joined when none of their characters is in the separator.
-/

namespace PlainStory.Text

variable {sep : Text}

theorem splitBy_of_cut?_eq_none (hsep : sep ≠ []) {s : Text} (h : cut? sep s = none) :
    splitBy sep s = [s] := by
  rw [splitBy, dif_neg hsep]
  split
  · rfl
  · next h' => simp [h] at h'

theorem splitBy_of_cut?_eq_some (hsep : sep ≠ []) {s front rest : Text}
    (h : cut? sep s = some (front, rest)) : splitBy sep s = front :: splitBy sep rest := by
  rw [splitBy, dif_neg hsep]
  split
  · next h' => simp [h] at h'
  · next front' rest' h' =>
    rw [h] at h'
    obtain ⟨rfl, rfl⟩ := Prod.mk.inj (Option.some.inj h')
    rfl

/-- A separator does not begin within a text that has none of its characters. -/
theorem cut?_append_of_disjoint (hsep : sep ≠ []) {s : Text} (hs : ∀ c ∈ s, c ∉ sep) (t : Text) :
    cut? sep (s ++ sep ++ t) = some (s, t) := by
  induction s with
  | nil => exact cut?_self_append hsep t
  | cons c cs ih =>
    obtain ⟨hc, hcs⟩ := List.forall_mem_cons.1 hs
    have hprefix : ¬sep <+: c :: (cs ++ sep ++ t) := by
      intro h
      cases sep with
      | nil => exact hsep rfl
      | cons d ds => exact hc ((List.cons_prefix_cons.1 h).1 ▸ List.mem_cons_self)
    rw [List.cons_append, List.cons_append, cut?_cons_of_not_isPrefix hprefix, ih hcs]
    rfl

theorem cut?_eq_none_of_disjoint (hsep : sep ≠ []) {s : Text} (hs : ∀ c ∈ s, c ∉ sep) :
    cut? sep s = none := by
  rw [cut?_eq_none_iff]
  intro h
  obtain ⟨c, hc⟩ := List.exists_mem_of_ne_nil sep hsep
  exact hs c (h.subset hc) hc

/-- Splitting undoes joining. -/
theorem splitBy_join (hsep : sep ≠ []) {parts : List Text} (hne : parts ≠ [])
    (h : ∀ s ∈ parts, ∀ c ∈ s, c ∉ sep) : splitBy sep (join sep parts) = parts := by
  induction parts with
  | nil => exact absurd rfl hne
  | cons s ss ih =>
    obtain ⟨hs, hss⟩ := List.forall_mem_cons.1 h
    by_cases hlast : ss = []
    · subst hlast
      have hone : join sep [s] = s := by simp [join]
      rw [hone, splitBy_of_cut?_eq_none hsep (cut?_eq_none_of_disjoint hsep hs)]
    · rw [join_cons hlast, splitBy_of_cut?_eq_some hsep (cut?_append_of_disjoint hsep hs _),
        ih hlast hss]

end PlainStory.Text
