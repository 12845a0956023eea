import PlainStory.Proofs.Text.Spacing

/-!
# Words

The words of a text are its longest runs of characters that are no blanks. The main statement is that a
text with narrow blanks is its words with single spaces between them.
-/

namespace PlainStory.Text

variable {run s : Text}

/-- The words of a text, in order. -/
def words (s : Text) : List Text := (s.splitOnP isBlank).filter fun w => !w.isEmpty

/-! ### A word and what follows it -/

@[simp] theorem words_nil : words [] = [] := by rw [words, List.splitOnP_nil]; rfl

theorem words_cons_of_blank {c : Char} (hc : isBlank c = true) (s : Text) :
    words (c :: s) = words s := by
  have hsplit := List.splitOnP_append_cons [] s hc
  rw [List.nil_append, List.splitOnP_nil] at hsplit
  rw [words, hsplit, List.filter_append, words]
  rfl

theorem words_append_of_blank (hrun : ∀ c ∈ run, isBlank c = true) (s : Text) :
    words (run ++ s) = words s := by
  induction run with
  | nil => rfl
  | cons c cs ih =>
    obtain ⟨hc, hcs⟩ := List.forall_mem_cons.1 hrun
    rw [List.cons_append, words_cons_of_blank hc, ih hcs]

theorem words_append_of_not_blank (hne : run ≠ []) (hrun : ∀ c ∈ run, isBlank c = false)
    (hs : ∀ c ∈ s.head?, isBlank c = true) : words (run ++ s) = run :: words s := by
  have hone : words run = [run] := by
    rw [words, List.splitOnP_eq_singleton hrun]
    exact List.filter_cons_of_pos (by simpa using hne)
  cases s with
  | nil => rw [List.append_nil, hone, words_nil]
  | cons c cs =>
    have hc : isBlank c = true := hs c rfl
    rw [words_cons_of_blank hc, words, List.splitOnP_append_cons run cs hc, List.filter_append,
      ← words, ← words, hone, List.singleton_append]

theorem words_eq_nil_of_blank (hs : blank s = true) : words s = [] := by
  have h := words_append_of_blank (List.all_eq_true.1 hs) []
  rwa [List.append_nil, words_nil] at h

/-- A text that is not blank begins with blanks and a word. -/
theorem exists_word (hs : blank s = false) :
    ∃ w run rest, s = w ++ (run ++ rest) ∧ (∀ c ∈ w, isBlank c = true) ∧ run ≠ [] ∧
      (∀ c ∈ run, isBlank c = false) ∧ ∀ c ∈ rest.head?, isBlank c = true := by
  obtain ⟨w, t, rfl, hw, ht⟩ := exists_run isBlank s
  obtain ⟨run, rest, rfl, hrun, hrest⟩ := exists_run (fun c => !isBlank c) t
  refine ⟨w, run, rest, rfl, hw, ?_, by simpa using hrun, by simpa using hrest⟩
  rintro rfl
  -- without a word behind the first blanks there is nothing behind them
  cases rest with
  | nil =>
    rw [List.append_nil, List.append_nil] at hs
    cases (List.all_eq_true.2 hw).symm.trans hs
  | cons c cs =>
    have hc : isBlank c = true := by simpa using hrest c rfl
    cases hc.symm.trans (ht c rfl)

theorem words_ne_nil (hs : blank s = false) : words s ≠ [] := by
  obtain ⟨w, run, rest, rfl, hw, hne, hrun, hrest⟩ := exists_word hs
  rw [words_append_of_blank hw, words_append_of_not_blank hne hrun hrest]
  exact List.cons_ne_nil run (words rest)

/-! ### Single spaces -/

theorem narrow_append_of_not_blank (hrun : ∀ c ∈ run, isBlank c = false) (s : Text) :
    narrow (run ++ s) = run ++ narrow s := by
  induction run with
  | nil => rfl
  | cons c cs ih =>
    obtain ⟨hc, hcs⟩ := List.forall_mem_cons.1 hrun
    rw [List.cons_append, narrow_cons_of_not_blank hc, ih hcs, List.cons_append]

theorem squeeze_append_of_blank (hrun : ∀ c ∈ run, isBlank c = true) (s : Text) :
    squeeze (run ++ s) = squeeze s := by
  rw [squeeze, trim, trimStart_append_of_blank hrun, ← trim, ← squeeze]

/-- The blanks that a text begins with become a space where it stands behind something. -/
theorem narrow_trimEnd (hs : blank s = false) (hhead : ∀ c ∈ s.head?, isBlank c = true) :
    narrow (trimEnd s) = ' ' :: squeeze s := by
  obtain ⟨w, t, rfl, hw, ht⟩ := exists_run isBlank s
  have hne : w ≠ [] := by
    rintro rfl
    cases t with
    | nil => cases hs
    | cons c cs => cases (hhead c rfl).symm.trans (ht c rfl)
  have htb : blank t = false := by
    rwa [blank_append, show blank w = true from List.all_eq_true.2 hw, Bool.true_and] at hs
  have hstart : trimStart t = t := trimStart_eq_self_iff.2 ht
  rw [squeeze_append_of_blank hw, squeeze, trim, hstart, trimEnd_append_of_not_blank w htb,
    narrow_append_of_blank hne hw fun c hc => ht c (mem_head?_of_trimEnd hc)]

theorem squeeze_append_of_not_blank (hne : run ≠ []) (hrun : ∀ c ∈ run, isBlank c = false)
    (hs : ∀ c ∈ s.head?, isBlank c = true) :
    squeeze (run ++ s) = if blank s then run else run ++ ' ' :: squeeze s := by
  have hstart : trimStart (run ++ s) = run ++ s := by
    obtain ⟨c, cs, rfl⟩ := List.exists_cons_of_ne_nil hne
    exact trimStart_eq_self_iff.2 fun d hd => Option.some.inj hd ▸ hrun c List.mem_cons_self
  rw [squeeze, trim, hstart]
  cases hb : blank s with
  | true =>
    obtain hnil | ⟨init, c, rfl⟩ := List.eq_nil_or_concat run
    · exact absurd hnil hne
    · have hnarrow := narrow_append_of_not_blank hrun []
      rw [List.append_nil, show narrow [] = [] from rfl, List.append_nil] at hnarrow
      rw [List.concat_eq_append] at hrun hnarrow ⊢
      have hc : isBlank c = false := hrun c List.mem_concat_self
      rw [trimEnd_append_of_blank _ (List.all_eq_true.1 hb), trimEnd_concat hc, hnarrow, if_pos rfl]
  | false =>
    rw [trimEnd_append_of_not_blank run hb, narrow_append_of_not_blank hrun, narrow_trimEnd hb hs,
      if_neg Bool.false_ne_true]

/-- A text with narrow blanks is its words with a space between them. -/
theorem squeeze_eq_join_words (s : Text) : squeeze s = join [' '] (words s) := by
  -- A word goes at once, so the induction is on the length.
  induction hn : s.length using Nat.strongRecOn generalizing s with
  | _ n ih =>
    subst hn
    cases hs : blank s with
    | true =>
      have h := squeeze_append_of_blank (List.all_eq_true.1 hs) []
      rw [List.append_nil] at h
      rw [h, words_eq_nil_of_blank hs]
      rfl
    | false =>
      obtain ⟨w, run, rest, rfl, hw, hne, hrun, hrest⟩ := exists_word hs
      have hlen : rest.length < (w ++ (run ++ rest)).length := by
        have := List.length_pos_iff.2 hne
        simp only [List.length_append]
        omega
      rw [squeeze_append_of_blank hw, words_append_of_blank hw,
        squeeze_append_of_not_blank hne hrun hrest, words_append_of_not_blank hne hrun hrest,
        ih _ hlen rest rfl]
      cases hb : blank rest with
      | true =>
        rw [if_pos rfl, words_eq_nil_of_blank hb]
        simp [join]
      | false =>
        rw [if_neg Bool.false_ne_true, join_cons (words_ne_nil hb), List.append_assoc,
          List.singleton_append]

end PlainStory.Text
