import Mathlib.Data.List.TakeDrop
import PlainStory.Text.Basic

/-!
# Laws of texts

The laws of the text functions that readers are built from: what a run at the start of a list is, what
trimming removes, how a text comes back from its lines and its lines from it, and where the first
occurrence of a word is.
-/

namespace PlainStory.Text

/-! ### Runs -/

section

variable {α : Type} {p : α → Bool} {run rest : List α}

/-- A run that is as long as it can be, cut off. -/
theorem takeWhile_append_eq (hrun : ∀ c ∈ run, p c = true) (hrest : ∀ c ∈ rest.head?, p c = false) :
    (run ++ rest).takeWhile p = run := by
  rw [List.takeWhile_append_of_pos hrun]
  cases rest with
  | nil => rw [List.takeWhile_nil, List.append_nil]
  | cons c cs =>
    have hc : ¬ p c = true := by simp [hrest c rfl]
    rw [List.takeWhile_cons_of_neg hc, List.append_nil]

theorem dropWhile_append_eq (hrun : ∀ c ∈ run, p c = true) (hrest : ∀ c ∈ rest.head?, p c = false) :
    (run ++ rest).dropWhile p = rest := by
  rw [List.dropWhile_append_of_pos hrun]
  cases rest with
  | nil => rfl
  | cons c cs =>
    have hc : ¬ p c = true := by simp [hrest c rfl]
    exact List.dropWhile_cons_of_neg hc

theorem span_append_eq (hrun : ∀ c ∈ run, p c = true) (hrest : ∀ c ∈ rest.head?, p c = false) :
    (run ++ rest).span p = (run, rest) := by
  rw [List.span_eq_takeWhile_dropWhile, takeWhile_append_eq hrun hrest,
    dropWhile_append_eq hrun hrest]

theorem span_eq_self (hrun : ∀ c ∈ run, p c = true) : run.span p = (run, []) := by
  have h : (run ++ []).span p = (run, []) := span_append_eq hrun nofun
  rwa [List.append_nil] at h

theorem head?_dropWhile_eq_false (p : α → Bool) (s : List α) :
    ∀ c ∈ (s.dropWhile p).head?, p c = false := by
  intro c hc
  have h := List.head?_dropWhile_not p s
  rw [Option.mem_def.1 hc] at h
  simpa using h

theorem of_mem_takeWhile {s : List α} : ∀ c ∈ s.takeWhile p, p c = true :=
  List.all_eq_true.1 List.all_takeWhile

/-- Every list is a run with a rest that does not begin with more of it. -/
theorem exists_run (p : α → Bool) (s : List α) :
    ∃ run rest, s = run ++ rest ∧ (∀ c ∈ run, p c = true) ∧ ∀ c ∈ rest.head?, p c = false :=
  ⟨s.takeWhile p, s.dropWhile p, List.takeWhile_append_dropWhile.symm, of_mem_takeWhile,
    head?_dropWhile_eq_false p s⟩

end

/-! ### Trimming -/

theorem trimStart_cons_of_blank {c : Char} (hc : isBlank c = true) (s : Text) :
    trimStart (c :: s) = trimStart s :=
  List.dropWhile_cons_of_pos hc

theorem trim_cons_of_blank {c : Char} (hc : isBlank c = true) (s : Text) :
    trim (c :: s) = trim s := by
  rw [trim, trimStart_cons_of_blank hc, trim]

theorem trimStart_eq_self_iff {s : Text} :
    trimStart s = s ↔ ∀ c ∈ s.head?, isBlank c = false := by
  cases s with
  | nil => simp [trimStart]
  | cons c cs =>
    cases hc : isBlank c with
    | false => simp [trimStart, hc]
    | true =>
      have hlen := (List.dropWhile_sublist (l := cs) isBlank).length_le
      rw [trimStart_cons_of_blank hc]
      constructor
      · intro h
        have := congrArg List.length (show cs.dropWhile isBlank = c :: cs from h)
        rw [List.length_cons] at this
        omega
      · intro h
        exact absurd (hc.symm.trans (h c rfl)) nofun

theorem trimStart_trimStart (s : Text) : trimStart (trimStart s) = trimStart s :=
  trimStart_eq_self_iff.2 (head?_dropWhile_eq_false isBlank s)

theorem trimEnd_append_of_blank (s : Text) {t : Text} (ht : ∀ c ∈ t, isBlank c = true) :
    trimEnd (s ++ t) = trimEnd s := by
  rw [trimEnd, List.reverse_append, List.dropWhile_append_of_pos (by simpa using ht), trimEnd]

theorem trimStart_eq_nil_of_blank {s : Text} (hs : ∀ c ∈ s, isBlank c = true) :
    trimStart s = [] := by
  have h : (s ++ []).dropWhile isBlank = [] := List.dropWhile_append_of_pos hs
  rwa [List.append_nil] at h

theorem trim_append_of_blank (s : Text) {t : Text} (ht : ∀ c ∈ t, isBlank c = true) :
    trim (s ++ t) = trim s := by
  induction s with
  | nil =>
    rw [List.nil_append, trim, trimStart_eq_nil_of_blank ht]
    rfl
  | cons c cs ih =>
    cases hc : isBlank c with
    | true => rw [List.cons_append, trim_cons_of_blank hc, ih, trim_cons_of_blank hc]
    | false =>
      have h : ∀ u : Text, trimStart (c :: u) = c :: u := fun u =>
        List.dropWhile_cons_of_neg (by simp [hc])
      rw [trim, List.cons_append, h, ← List.cons_append, trimEnd_append_of_blank _ ht, trim, h]

theorem isBlank_newline : ∀ c ∈ ['\n'], isBlank c = true := List.forall_mem_singleton.2 rfl

theorem isBlank_return : ∀ c ∈ ['\r'], isBlank c = true := List.forall_mem_singleton.2 rfl

theorem trim_append_newline (s : Text) : trim (s ++ ['\n']) = trim s :=
  trim_append_of_blank s isBlank_newline

theorem length_trimEnd_le (s : Text) : (trimEnd s).length ≤ s.length := by
  have h := (List.dropWhile_sublist (l := s.reverse) isBlank).length_le
  rwa [List.length_reverse, ← List.length_reverse] at h

theorem length_trim_le (s : Text) : (trim s).length ≤ s.length :=
  Nat.le_trans (length_trimEnd_le _) (List.dropWhile_sublist isBlank).length_le

theorem trimStart_of_trim {s : Text} (h : trim s = s) : trimStart s = s := by
  have hlen : s.length ≤ (trimStart s).length := by
    have := length_trimEnd_le (trimStart s)
    rwa [show trimEnd (trimStart s) = s from h] at this
  exact (List.dropWhile_suffix isBlank).eq_of_length_le hlen

/-- The start of a text that begins with no blank begins with none. -/
theorem trimStart_of_append {s t : Text} (h : trimStart (s ++ t) = s ++ t) :
    trimStart s = s := by
  rw [trimStart_eq_self_iff] at h ⊢
  cases s with
  | nil => exact nofun
  | cons c cs => exact h

/-! ### Parting and joining -/

theorem join_append (sep : Text) {ss ts : List Text} (hs : ss ≠ []) (ht : ts ≠ []) :
    join sep (ss ++ ts) = join sep ss ++ sep ++ join sep ts := by
  induction ss with
  | nil => exact absurd rfl hs
  | cons s ss ih =>
    cases ss with
    | nil =>
      rw [List.cons_append, List.nil_append, join_cons ht]
      simp [join]
    | cons s' ss =>
      rw [List.cons_append, join_cons (by simp), ih (List.cons_ne_nil _ _),
        join_cons (List.cons_ne_nil s' ss)]
      simp only [List.append_assoc]

theorem not_mem_join {sep : Text} {c : Char} (hsep : c ∉ sep) {ss : List Text}
    (h : ∀ s ∈ ss, c ∉ s) : c ∉ join sep ss := by
  induction ss with
  | nil => exact List.not_mem_nil
  | cons s ss ih =>
    obtain ⟨hs, hss⟩ := List.forall_mem_cons.1 h
    cases ss with
    | nil => simpa [join] using hs
    | cons t ts =>
      rw [join_cons (List.cons_ne_nil t ts), List.mem_append, List.mem_append, not_or, not_or]
      exact ⟨⟨hs, hsep⟩, ih hss⟩

theorem joinLines_append {ss ts : List Text} (hs : ss ≠ []) (ht : ts ≠ []) :
    joinLines (ss ++ ts) = joinLines ss ++ '\n' :: joinLines ts := by
  rw [joinLines, join_append _ hs ht, List.append_assoc]
  rfl

theorem joinLines_cons (s : Text) {ts : List Text} (ht : ts ≠ []) :
    joinLines (s :: ts) = s ++ '\n' :: joinLines ts := by
  rw [joinLines, join_cons ht, List.append_assoc]
  rfl

@[simp] theorem joinLines_singleton (s : Text) : joinLines [s] = s := by simp [joinLines, join]

theorem exists_joinLines_cons (s : Text) (ss : List Text) : ∃ t, joinLines (s :: ss) = s ++ t := by
  cases ss with
  | nil => exact ⟨[], by rw [joinLines_singleton, List.append_nil]⟩
  | cons s' ss => exact ⟨_, joinLines_cons s (List.cons_ne_nil s' ss)⟩

theorem trim_joinLines_concat_nil (ss : List Text) :
    trim (joinLines (ss ++ [[]])) = trim (joinLines ss) := by
  cases ss with
  | nil => rfl
  | cons s ss =>
    rw [joinLines_append (List.cons_ne_nil s ss) (List.cons_ne_nil _ _), joinLines_singleton]
    exact trim_append_newline _

theorem trim_joinLines_nil_cons (ss : List Text) :
    trim (joinLines ([] :: ss)) = trim (joinLines ss) := by
  cases ss with
  | nil => rfl
  | cons s ss =>
    rw [joinLines_cons _ (List.cons_ne_nil s ss), List.nil_append]
    exact trim_cons_of_blank (by decide) _

theorem mem_of_mem_splitAt {mark : Char} {s part : Text} (h : part ∈ splitAt mark s) :
    ∀ c ∈ part, c ∈ s ∧ c ≠ mark := by
  induction s generalizing part with
  | nil =>
    obtain rfl := List.mem_singleton.1 h
    exact nofun
  | cons d ds ih =>
    rw [splitAt] at h
    split at h
    · rcases List.mem_cons.1 h with rfl | h
      · exact nofun
      · exact fun c hc => ⟨List.mem_cons_of_mem _ (ih h c hc).1, (ih h c hc).2⟩
    · next hd =>
      obtain ⟨first, more, hs⟩ := List.exists_cons_of_ne_nil (splitAt_ne_nil mark ds)
      rw [hs, consFirst] at h
      rw [hs] at ih
      intro c hc
      rcases List.mem_cons.1 h with rfl | h
      · rcases List.mem_cons.1 hc with rfl | hc
        · exact ⟨List.mem_cons_self, hd⟩
        · exact ⟨List.mem_cons_of_mem _ (ih List.mem_cons_self c hc).1,
            (ih List.mem_cons_self c hc).2⟩
      · have := ih (List.mem_cons_of_mem _ h) c hc
        exact ⟨List.mem_cons_of_mem _ this.1, this.2⟩

theorem splitAt_of_not_mem {mark : Char} {s : Text} (hs : mark ∉ s) : splitAt mark s = [s] := by
  induction s with
  | nil => rfl
  | cons c cs ih =>
    rw [List.mem_cons, not_or] at hs
    rw [splitAt, if_neg (Ne.symm hs.1), ih hs.2, consFirst]

theorem splitAt_append (mark : Char) (s t : Text) :
    splitAt mark (s ++ mark :: t) = splitAt mark s ++ splitAt mark t := by
  induction s with
  | nil => simp [splitAt]
  | cons c cs ih =>
    rw [List.cons_append, splitAt, splitAt, ih]
    split
    · rfl
    · obtain ⟨first, more, h⟩ := List.exists_cons_of_ne_nil (splitAt_ne_nil mark cs)
      rw [h]
      rfl

/-- Splitting parts that are joined at the mark splits each of them. -/
theorem splitAt_join_eq_flatMap (mark : Char) {parts : List Text} (hne : parts ≠ []) :
    splitAt mark (join [mark] parts) = parts.flatMap (splitAt mark) := by
  induction parts with
  | nil => exact absurd rfl hne
  | cons s ss ih =>
    cases ss with
    | nil => simp [join]
    | cons t ts =>
      rw [join_cons (List.cons_ne_nil t ts), List.append_assoc, List.singleton_append,
        splitAt_append, ih (List.cons_ne_nil t ts), List.flatMap_cons (x := s)]

/-- Splitting at the mark undoes the joining of texts without it. -/
theorem splitAt_join {mark : Char} {parts : List Text} (hne : parts ≠ [])
    (h : ∀ part ∈ parts, mark ∉ part) : splitAt mark (join [mark] parts) = parts := by
  have hparts : parts.map (splitAt mark) = parts.map ([·]) :=
    List.map_congr_left fun part hp => splitAt_of_not_mem (h part hp)
  rw [splitAt_join_eq_flatMap mark hne, List.flatMap_def, hparts, ← List.flatMap_def,
    List.flatMap_singleton']

theorem splitAt_append_of_not_mem {mark : Char} {s : Text} (hs : mark ∉ s) {t part : Text}
    {parts : List Text} (ht : splitAt mark t = part :: parts) :
    splitAt mark (s ++ t) = (s ++ part) :: parts := by
  induction s with
  | nil => exact ht
  | cons c cs ih =>
    rw [List.mem_cons, not_or] at hs
    rw [List.cons_append, splitAt, if_neg (Ne.symm hs.1), ih hs.2]
    rfl

/-- What stands behind the last mark of a text grows when the text does. -/
theorem exists_splitAt_append {mark : Char} (s : Text) {t : Text} (ht : mark ∉ t) :
    ∃ init last, splitAt mark s = init ++ [last] ∧ splitAt mark (s ++ t) = init ++ [last ++ t] := by
  induction s with
  | nil => exact ⟨[], [], rfl, splitAt_of_not_mem ht⟩
  | cons c cs ih =>
    obtain ⟨init, last, hs, hst⟩ := ih
    rw [List.cons_append, splitAt, splitAt, hs, hst]
    by_cases hc : c = mark
    · exact ⟨[] :: init, last, if_pos hc, if_pos hc⟩
    · rw [if_neg hc, if_neg hc]
      cases init with
      | nil => exact ⟨[], c :: last, rfl, rfl⟩
      | cons part parts => exact ⟨(c :: part) :: parts, last, rfl, rfl⟩

theorem joinLines_concat_append (ls : List Text) (s t : Text) :
    joinLines (ls ++ [s ++ t]) = joinLines (ls ++ [s]) ++ t := by
  cases ls with
  | nil => rw [List.nil_append, List.nil_append, joinLines_singleton, joinLines_singleton]
  | cons l ls =>
    rw [joinLines_append (List.cons_ne_nil l ls) (List.cons_ne_nil _ _),
      joinLines_append (List.cons_ne_nil l ls) (List.cons_ne_nil _ _), joinLines_singleton,
      joinLines_singleton, List.append_assoc, List.cons_append]

/-! ### Lines -/

theorem joinLines_splitAt (s : Text) : joinLines (splitAt '\n' s) = s := join_splitAt '\n' s

/-- Texts on lines of their own have their own lines one after another. -/
theorem joinLines_flatMap_splitAt (ss : List Text) :
    joinLines (ss.flatMap (splitAt '\n')) = joinLines ss := by
  induction ss with
  | nil => rfl
  | cons s ss ih =>
    cases ss with
    | nil =>
      rw [List.flatMap_cons, List.flatMap_nil, List.append_nil, joinLines_splitAt,
        joinLines_singleton]
    | cons t ts =>
      have hne : (t :: ts).flatMap (splitAt '\n') ≠ [] := by
        rw [List.flatMap_cons]
        exact List.append_ne_nil_of_left_ne_nil (splitAt_ne_nil '\n' t) _
      rw [List.flatMap_cons, joinLines_append (splitAt_ne_nil '\n' s) hne, ih, joinLines_splitAt,
        joinLines_cons s (List.cons_ne_nil t ts)]

theorem joinLines_cons_cons (c : Char) (s : Text) (ss : List Text) :
    joinLines ((c :: s) :: ss) = c :: joinLines (s :: ss) :=
  join_consFirst _ c (List.cons_ne_nil s ss)

theorem joinLines_append_cons (s t : Text) (ss : List Text) :
    joinLines ((s ++ t) :: ss) = s ++ joinLines (t :: ss) := by
  induction s with
  | nil => rfl
  | cons c cs ih => rw [List.cons_append, joinLines_cons_cons, ih, List.cons_append]

theorem consFirst_append (c : Char) {ls : List Text} (hne : ls ≠ []) (ms : List Text) :
    consFirst c (ls ++ ms) = consFirst c ls ++ ms := by
  cases ls with
  | nil => exact absurd rfl hne
  | cons l ls => rfl

theorem lines_break_cons (s : Text) : lines ('\n' :: s) = [] :: lines s := by rw [lines]

theorem lines_cons {c : Char} (hn : c ≠ '\n') (hr : c ≠ '\r') (s : Text) :
    lines (c :: s) = consFirst c (lines s) := by
  rw [lines]
  · exact hn
  · exact fun _ h => absurd h hr

/-- Without carriage returns the lines of a text are what stands between its line feeds. -/
theorem lines_append_break_of_not_mem {s : Text} (hr : '\r' ∉ s) (t : Text) :
    lines (s ++ '\n' :: t) = splitAt '\n' s ++ lines t := by
  induction s with
  | nil => exact lines_break_cons t
  | cons c cs ih =>
    rw [List.mem_cons, not_or] at hr
    rw [List.cons_append, splitAt]
    split
    · next hc => rw [hc, lines_break_cons, ih hr.2, List.cons_append]
    · next hc =>
      rw [lines_cons hc (Ne.symm hr.1), ih hr.2, consFirst_append c (splitAt_ne_nil '\n' cs)]

theorem lines_append {s : Text} (hn : '\n' ∉ s) (hr : '\r' ∉ s) (t : Text) :
    lines (s ++ '\n' :: t) = s :: lines t := by
  rw [lines_append_break_of_not_mem hr, splitAt_of_not_mem hn, List.singleton_append]

theorem lines_of_not_mem {s : Text} (hn : '\n' ∉ s) (hr : '\r' ∉ s) (hne : s ≠ []) :
    lines s = [s] := by
  induction s with
  | nil => exact absurd rfl hne
  | cons c cs ih =>
    rw [List.mem_cons, not_or] at hn hr
    rw [lines_cons (Ne.symm hn.1) (Ne.symm hr.1)]
    cases cs with
    | nil => rfl
    | cons d ds => rw [ih hn.2 hr.2 (List.cons_ne_nil d ds), consFirst]

/-- The lines of a text come back when they are joined, up to an empty last one. -/
theorem lines_joinLines {ls : List Text} (h : ∀ l ∈ ls, '\n' ∉ l ∧ '\r' ∉ l) :
    lines (joinLines ls) = ls ∨ ls = lines (joinLines ls) ++ [[]] := by
  induction ls with
  | nil => exact .inl rfl
  | cons l ls ih =>
    obtain ⟨hn, hr⟩ := h l List.mem_cons_self
    cases ls with
    | nil =>
      rw [joinLines_singleton]
      cases l with
      | nil => exact .inr rfl
      | cons c cs => exact .inl (lines_of_not_mem hn hr (List.cons_ne_nil c cs))
    | cons l' ls =>
      rw [joinLines_cons l (List.cons_ne_nil l' ls), lines_append hn hr]
      rcases ih fun l hl => h l (List.mem_cons_of_mem _ hl) with h | h
      · exact .inl (congrArg (l :: ·) h)
      · exact .inr (congrArg (l :: ·) h)

/-- A line break at the end of a text ends its last line, or is an empty last line itself. -/
theorem lines_append_break {s : Text} (hr : '\r' ∉ s) :
    lines (s ++ ['\n']) = lines s ∨ lines (s ++ ['\n']) = lines s ++ [[]] := by
  induction s with
  | nil => exact .inr rfl
  | cons c cs ih =>
    rw [List.mem_cons, not_or] at hr
    by_cases hn : c = '\n'
    · subst hn
      rw [List.cons_append, lines_break_cons, lines_break_cons]
      rcases ih hr.2 with h | h
      · exact .inl (congrArg ([] :: ·) h)
      · exact .inr (congrArg ([] :: ·) h)
    · rw [List.cons_append, lines_cons hn (Ne.symm hr.1), lines_cons hn (Ne.symm hr.1)]
      rcases ih hr.2 with h | h
      · exact .inl (congrArg (consFirst c) h)
      · rw [h]
        cases lines cs with
        | nil => exact .inl rfl
        | cons l ls => exact .inr rfl

/-! ### First occurrences -/

theorem after?_eq_none_iff {word s : Text} : after? word s = none ↔ ¬ word <+: s := by
  rw [← Option.not_isSome_iff_eq_none, Option.isSome_iff_exists]
  refine not_congr ⟨?_, ?_⟩
  · rintro ⟨rest, h⟩
    exact ⟨rest, (after?_eq_some_iff.1 h).symm⟩
  · rintro ⟨rest, h⟩
    exact ⟨rest, after?_eq_some_iff.2 h.symm⟩

theorem cut?_eq_none_iff {word s : Text} : cut? word s = none ↔ ¬ word <:+: s := by
  induction s with
  | nil => cases word <;> simp [cut?]
  | cons c cs ih =>
    rw [cut?, List.infix_cons_iff, not_or, ← after?_eq_none_iff, ← ih]
    cases after? word (c :: cs) with
    | none => simp
    | some rest => simp

theorem cut?_self_append {word : Text} (hne : word ≠ []) (rest : Text) :
    cut? word (word ++ rest) = some ([], rest) := by
  cases word with
  | nil => exact absurd rfl hne
  | cons w ws =>
    have h : after? (w :: ws) (w :: (ws ++ rest)) = some rest := after?_eq_some_iff.2 rfl
    rw [List.cons_append, cut?, h]

/-- A word that starts before a character which it does not hold ends before it. -/
theorem isPrefix_of_append_cons {word s t : Text} {mark : Char} (hw : mark ∉ word)
    (h : word <+: s ++ mark :: t) : word <+: s := by
  induction word generalizing s with
  | nil => exact List.nil_prefix
  | cons w ws ih =>
    rw [List.mem_cons, not_or] at hw
    cases s with
    | nil => exact absurd (List.cons_prefix_cons.1 h).1.symm hw.1
    | cons c cs =>
      obtain ⟨rfl, htail⟩ := List.cons_prefix_cons.1 h
      exact List.cons_prefix_cons.2 ⟨rfl, ih hw.2 htail⟩

theorem startsWith_append_cons {word : Text} {mark : Char} (hw : mark ∉ word) (s t : Text) :
    startsWith word (s ++ mark :: t) = startsWith word s := by
  rw [Bool.eq_iff_iff, startsWith_iff, startsWith_iff]
  constructor
  · rintro ⟨rest, h⟩
    obtain ⟨rest', h'⟩ := isPrefix_of_append_cons hw ⟨rest, h.symm⟩
    exact ⟨rest', h'.symm⟩
  · rintro ⟨rest, rfl⟩
    exact ⟨rest ++ mark :: t, List.append_assoc ..⟩

theorem cut?_cons_of_not_isPrefix {word : Text} {c : Char} {s : Text} (h : ¬ word <+: c :: s) :
    cut? word (c :: s) = (cut? word s).map fun (front, rest) => (c :: front, rest) := by
  rw [cut?, after?_eq_none_iff.2 h]

/-- The search for a word passes over the lines that do not hold it. -/
theorem cut?_append_break {word s : Text} (hw : '\n' ∉ word) (h : ¬ word <:+: s) (t : Text) :
    cut? word (s ++ '\n' :: t) =
      (cut? word t).map fun (front, rest) => (s ++ '\n' :: front, rest) := by
  induction s with
  | nil =>
    have hp : ¬ word <+: '\n' :: t := fun hp =>
      h (isPrefix_of_append_cons (s := []) hw hp).isInfix
    rw [List.nil_append, cut?_cons_of_not_isPrefix hp]
    rfl
  | cons c cs ih =>
    have hp : ¬ word <+: c :: (cs ++ '\n' :: t) := fun hp =>
      h (isPrefix_of_append_cons (s := c :: cs) hw hp).isInfix
    rw [List.cons_append, cut?_cons_of_not_isPrefix hp, ih fun hi => h (List.infix_cons hi),
      Option.map_map]
    rfl

/-- The first place of a word does not change with what is written behind the text. -/
theorem cut?_append_of_eq_some {word s front rest : Text} (h : cut? word s = some (front, rest))
    (hne : word ≠ []) (t : Text) : cut? word (s ++ t) = some (front, rest ++ t) := by
  induction s generalizing front with
  | nil => simp [cut?, hne] at h
  | cons c cs ih =>
    cases ha : after? word (c :: cs) with
    | some r =>
      have hs := after?_eq_some_iff.1 ha
      rw [hs, cut?_self_append hne] at h
      obtain ⟨rfl, rfl⟩ := Prod.mk.inj (Option.some.inj h)
      rw [hs, List.append_assoc, cut?_self_append hne]
    | none =>
      rw [cut?_cons_of_not_isPrefix (after?_eq_none_iff.1 ha)] at h
      obtain ⟨⟨f, r⟩, hf, he⟩ := Option.map_eq_some_iff.1 h
      obtain ⟨rfl, rfl⟩ := Prod.mk.inj he
      -- There is room for the word in the text, so it would start here without what is behind it.
      have hp : ¬ word <+: c :: cs ++ t := by
        intro hp
        have hlen := length_of_cut? hf
        exact after?_eq_none_iff.1 ha (List.prefix_of_prefix_length_le hp (List.prefix_append _ t)
          (by rw [List.length_cons]; omega))
      rw [List.cons_append] at hp ⊢
      rw [cut?_cons_of_not_isPrefix hp, ih hf]
      rfl

/-- A line break at the end does not change where a word is first found. -/
theorem cut?_concat_break {word : Text} (hw : '\n' ∉ word) (hne : word ≠ []) (s : Text) :
    cut? word (s ++ ['\n']) =
      (cut? word s).map fun (front, rest) => (front, rest ++ ['\n']) := by
  cases h : cut? word s with
  | some x => exact cut?_append_of_eq_some h hne ['\n']
  | none =>
    have hnil : cut? word [] = none := by rw [cut?, if_neg hne]
    rw [cut?_append_break hw (cut?_eq_none_iff.1 h), hnil]
    rfl

/-- A word without a line break that no line holds is not found. -/
theorem cut?_joinLines_eq_none {word : Text} (hw : '\n' ∉ word) (hne : word ≠ []) {ss : List Text}
    (h : ∀ s ∈ ss, ¬ word <:+: s) : cut? word (joinLines ss) = none := by
  induction ss with
  | nil => exact cut?_eq_none_iff.2 fun hi => hne (List.infix_nil.1 hi)
  | cons s ss ih =>
    obtain ⟨hs, hss⟩ := List.forall_mem_cons.1 h
    cases ss with
    | nil =>
      rw [joinLines_singleton]
      exact cut?_eq_none_iff.2 hs
    | cons t ts =>
      rw [joinLines_cons s (List.cons_ne_nil t ts), cut?_append_break hw hs, ih hss]
      rfl

/-- What stands in front of the first place of a word is what stands in front of any place of it, or is
shorter. -/
theorem eq_or_length_lt_of_cut? {word s front rest front' rest' : Text}
    (h : cut? word s = some (front, rest)) (h' : s = front' ++ word ++ rest') :
    front' = front ∧ rest' = rest ∨ front.length < front'.length := by
  induction s generalizing front front' with
  | nil =>
    obtain ⟨rfl, rfl, rfl⟩ : front' = [] ∧ word = [] ∧ rest' = [] := by simpa using h'.symm
    exact .inl (by simpa [cut?] using h)
  | cons c cs ih =>
    rw [cut?] at h
    cases ha : after? word (c :: cs) with
    | some r =>
      rw [ha] at h
      obtain ⟨rfl, rfl⟩ := Prod.mk.inj (Option.some.inj h)
      cases front' with
      | nil =>
        rw [after?_eq_some_iff.1 ha] at h'
        exact .inl ⟨rfl, (List.append_cancel_left h').symm⟩
      | cons d ds => exact .inr (Nat.succ_pos _)
    | none =>
      rw [ha] at h
      obtain ⟨⟨f, r⟩, hf, he⟩ := Option.map_eq_some_iff.1 h
      obtain ⟨rfl, rfl⟩ := Prod.mk.inj he
      cases front' with
      | nil => exact absurd ⟨rest', h'.symm⟩ (after?_eq_none_iff.1 ha)
      | cons d ds =>
        obtain ⟨rfl, hcs⟩ := List.cons_eq_cons.1 h'
        rcases ih hf hcs with ⟨rfl, rfl⟩ | hlt
        · exact .inl ⟨rfl, rfl⟩
        · exact .inr (Nat.succ_lt_succ hlt)

/-- The first place of a word in a text leaves at least as much behind it as any place of the word in
an end of the text does. -/
theorem exists_cut?_of_isSuffix {word s t front' rest' : Text} (hs : s = front' ++ word ++ rest')
    (h : s <:+ t) : ∃ front rest, cut? word t = some (front, rest) ∧ rest' <:+ rest := by
  subst hs
  obtain ⟨w, rfl⟩ := h
  have hplace : w ++ (front' ++ word ++ rest') = (w ++ front') ++ word ++ rest' := by
    simp only [List.append_assoc]
  cases hcut : cut? word (w ++ (front' ++ word ++ rest')) with
  | none => exact absurd ⟨w ++ front', rest', hplace.symm⟩ (cut?_eq_none_iff.1 hcut)
  | some x =>
    obtain ⟨front, rest⟩ := x
    refine ⟨front, rest, rfl, ?_⟩
    rcases eq_or_length_lt_of_cut? hcut hplace with ⟨-, rfl⟩ | hlt
    · exact List.suffix_refl _
    · -- Both rests are ends of the text, and the place that comes first leaves the longer one.
      have hall := hplace.symm.trans (eq_of_cut? hcut)
      have hlen := congrArg List.length hall
      simp only [List.length_append] at hlen hlt
      have hrest : rest <:+ w ++ front' ++ word ++ rest' := ⟨front ++ word, hall.symm⟩
      exact List.suffix_of_suffix_length_le (List.suffix_append _ rest') hrest (by omega)

/-! ### Words at the start of a line -/

/-- What a text says in front of the first place of a word, which is all of it if it does not hold the
word. -/
def before (word s : Text) : Text := ((cut? word s).map Prod.fst).getD s

/-- What is behind the first place of a word in a text and a further line, which starts with the word
and goes on with `t`. -/
def behind (word s t : Text) : Text :=
  match cut? word s with
  | some (_, rest) => rest ++ '\n' :: (word ++ t)
  | none => t

section

variable {word s t front rest : Text}

theorem before_of_cut? (h : cut? word s = some (front, rest)) : before word s = front := by
  rw [before, h]
  rfl

theorem before_eq_self (h : ¬ word <:+: s) : before word s = s := by
  rw [before, cut?_eq_none_iff.2 h]
  rfl

theorem before_cons {c : Char} (h : ¬ word <+: c :: s) : before word (c :: s) = c :: before word s := by
  rw [before, cut?_cons_of_not_isPrefix h, before]
  cases cut? word s <;> rfl

theorem behind_eq_self (h : ¬ word <:+: s) : behind word s t = t := by
  rw [behind, cut?_eq_none_iff.2 h]

theorem behind_append (word s t u : Text) : behind word s (t ++ u) = behind word s t ++ u := by
  rw [behind, behind]
  cases cut? word s <;> simp

theorem behind_cons {c : Char} (h : ¬ word <+: c :: s) : behind word (c :: s) t = behind word s t := by
  rw [behind, cut?_cons_of_not_isPrefix h, behind]
  cases cut? word s <;> rfl

/-- Where a line starts with a word, the text is cut there or at an earlier place of the word. -/
theorem exists_cut?_append_break_word (hw : '\n' ∉ word) (hne : word ≠ []) (s t : Text) :
    ∃ front, cut? word (s ++ '\n' :: (word ++ t)) = some (front, behind word s t) ∧
      trim front = trim (before word s) := by
  cases h : cut? word s with
  | none =>
    have hs := cut?_eq_none_iff.1 h
    have hcut := cut?_append_break hw hs (word ++ t)
    rw [cut?_self_append hne] at hcut
    rw [before_eq_self hs, behind_eq_self hs]
    exact ⟨s ++ ['\n'], hcut, trim_append_newline s⟩
  | some x =>
    rw [before_of_cut? h, behind, h]
    exact ⟨x.1, cut?_append_of_eq_some h hne _, rfl⟩

/-- A trimmed text is all in front of a word only if it does not hold the word. -/
theorem trim_before_eq_iff (hne : word ≠ []) (hs : trim s = s) :
    trim (before word s) = s ↔ ¬ word <:+: s := by
  refine ⟨fun h hword => ?_, fun h => by rw [before_eq_self h, hs]⟩
  cases hcut : cut? word s with
  | none => exact cut?_eq_none_iff.1 hcut hword
  | some x =>
    rw [before_of_cut? hcut] at h
    have hlen := length_of_cut? hcut
    have hfront := length_trim_le x.1
    have hpos := List.length_pos_iff.2 hne
    rw [h] at hfront
    omega

end

end PlainStory.Text
