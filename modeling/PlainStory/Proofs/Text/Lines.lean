import PlainStory.Proofs.Text.Basic

/-!
# Line breaks between lines

The lines of two texts with a line break between them, and what such a break at the end of a text does
to its last line: it ends the line, is an empty line of its own, or takes a carriage return with it
that the line ended with before.
-/

namespace PlainStory.Text

theorem lines_ne_nil {s : Text} (hs : s ≠ []) : lines s ≠ [] := by
  fun_cases lines s with
  | case1 => exact absurd rfl hs
  | case2 cs => exact List.cons_ne_nil _ _
  | case3 cs => exact List.cons_ne_nil _ _
  | case4 c cs => cases lines cs <;> exact List.cons_ne_nil _ _

theorem lines_return_cons (s : Text) : lines ('\r' :: '\n' :: s) = [] :: lines s := by rw [lines]

/-- A character that neither is a line break nor starts one belongs to the first line. -/
theorem lines_cons_of_not_break {c : Char} {s : Text} (hn : c ≠ '\n')
    (hr : ∀ t, c = '\r' → s ≠ '\n' :: t) : lines (c :: s) = consFirst c (lines s) := by
  rw [lines]
  · exact hn
  · exact hr

theorem newline_not_mem_lines {s : Text} : ∀ l ∈ lines s, '\n' ∉ l := by
  fun_induction lines s with
  | case1 => exact nofun
  | case2 cs ih => exact List.forall_mem_cons.2 ⟨List.not_mem_nil, ih⟩
  | case3 cs ih => exact List.forall_mem_cons.2 ⟨List.not_mem_nil, ih⟩
  | case4 c cs hn _ ih =>
    have hc : '\n' ≠ c := fun h => hn h.symm
    cases hls : lines cs with
    | nil => simp [consFirst, hc]
    | cons l ls =>
      rw [hls] at ih
      obtain ⟨hl, hmore⟩ := List.forall_mem_cons.1 ih
      refine List.forall_mem_cons.2 ⟨?_, hmore⟩
      rw [List.mem_cons, not_or]
      exact ⟨hc, hl⟩

theorem mem_of_mem_lines {s : Text} : ∀ l ∈ lines s, ∀ c ∈ l, c ∈ s := by
  fun_induction lines s with
  | case1 => exact nofun
  | case2 cs ih =>
    exact List.forall_mem_cons.2 ⟨nofun, fun l hl c hc => List.mem_cons_of_mem _ (ih l hl c hc)⟩
  | case3 cs ih =>
    exact List.forall_mem_cons.2
      ⟨nofun, fun l hl c hc => List.mem_cons_of_mem _ (List.mem_cons_of_mem _ (ih l hl c hc))⟩
  | case4 c cs _ _ ih =>
    cases hls : lines cs with
    | nil => simp [consFirst]
    | cons l ls =>
      rw [hls] at ih
      refine List.forall_mem_cons.2 ⟨fun d hd => ?_, fun m hm d hd => ?_⟩
      · rcases List.mem_cons.1 hd with rfl | hd
        · exact List.mem_cons_self
        · exact List.mem_cons_of_mem c (ih l List.mem_cons_self d hd)
      · exact List.mem_cons_of_mem c (ih m (List.mem_cons_of_mem l hm) d hd)

/-- Lines that are not empty and hold no line break come apart where they were joined. -/
theorem lines_joinLines_of_ne_nil {ls : List Text} (h : ∀ l ∈ ls, '\n' ∉ l ∧ '\r' ∉ l)
    (hne : ∀ l ∈ ls, l ≠ []) : lines (joinLines ls) = ls := by
  rcases lines_joinLines h with hls | hls
  · exact hls
  · exact absurd rfl (hne [] (hls ▸ List.mem_append_right _ List.mem_cons_self))

/-- A text that ends with no blank has no empty last line, so it comes apart where it was joined. -/
theorem lines_joinLines_of_trimEnd {ls : List Text} (h : ∀ l ∈ ls, '\n' ∉ l ∧ '\r' ∉ l)
    (hne : joinLines ls ≠ []) (htrim : trimEnd (joinLines ls) = joinLines ls) :
    lines (joinLines ls) = ls := by
  rcases lines_joinLines h with hls | hls
  · exact hls
  · generalize lines (joinLines ls) = ms at hls
    subst hls
    cases ms with
    | nil => exact absurd rfl hne
    | cons m ms =>
      rw [joinLines_append (List.cons_ne_nil m ms) (List.cons_ne_nil _ _), joinLines_singleton,
        trimEnd_append_of_blank _ isBlank_newline] at htrim
      have hlen := length_trimEnd_le (joinLines (m :: ms))
      rw [htrim, List.length_append, List.length_singleton] at hlen
      omega

theorem lines_eq_splitAt {s : Text} (hr : '\r' ∉ s) (hne : s ≠ []) (htrim : trimEnd s = s) :
    lines s = splitAt '\n' s := by
  have hbreaks : ∀ l ∈ splitAt '\n' s, '\n' ∉ l ∧ '\r' ∉ l := fun l hl =>
    ⟨fun hn => (mem_of_mem_splitAt hl _ hn).2 rfl, fun h => hr (mem_of_mem_splitAt hl _ h).1⟩
  have h := lines_joinLines_of_trimEnd hbreaks
  rw [joinLines_splitAt] at h
  exact h hne htrim

/-- What stands before a character and holds no line feed is the beginning of its line, unless the
character is a line feed itself. -/
theorem lines_append_cons {s : Text} (hs : '\n' ∉ s) {c : Char} (hc : c ≠ '\n') {t l : Text}
    {ls : List Text} (h : lines (c :: t) = l :: ls) : lines (s ++ c :: t) = (s ++ l) :: ls := by
  induction s with
  | nil => exact h
  | cons d ds ih =>
    rw [List.mem_cons, not_or] at hs
    have hnext : ∀ u, ds ++ c :: t ≠ '\n' :: u := by
      cases ds with
      | nil => exact fun u hu => hc (List.cons.inj hu).1
      | cons e es => exact fun u hu => hs.2 ((List.cons.inj hu).1 ▸ List.mem_cons_self)
    rw [List.cons_append, lines_cons_of_not_break (Ne.symm hs.1) fun u _ => hnext u, ih hs.2]
    rfl

/-- Lines that end with a character which belongs to no line break come apart where they were
joined, whatever carriage returns stand within them. -/
theorem lines_joinLines_concat (c : Char) (hn : c ≠ '\n') (hr : c ≠ '\r') {ss : List Text}
    (h : ∀ s ∈ ss, '\n' ∉ s) :
    lines (joinLines (ss.map (· ++ [c]))) = ss.map (· ++ [c]) := by
  induction ss with
  | nil => rfl
  | cons s ss ih =>
    obtain ⟨hs, hss⟩ := List.forall_mem_cons.1 h
    cases ss with
    | nil =>
      rw [List.map_singleton, joinLines_singleton]
      exact lines_append_cons hs hn (lines_of_not_mem (by simp [Ne.symm hn]) (by simp [Ne.symm hr])
        (List.cons_ne_nil c []))
    | cons t ts =>
      have hbreak : lines (c :: '\n' :: joinLines ((t :: ts).map (· ++ [c]))) =
          [c] :: (t :: ts).map (· ++ [c]) := by
        rw [lines_cons hn hr, lines_break_cons, ih hss]
        rfl
      have hne : (t :: ts).map (· ++ [c]) ≠ [] := List.cons_ne_nil _ _
      rw [List.map_cons, joinLines_cons _ hne, List.append_assoc]
      exact lines_append_cons hs hn hbreak

/-- The lines of texts with a line break between them. -/
theorem lines_append_break_append (s t : Text) :
    lines (s ++ '\n' :: t) = lines (s ++ ['\n']) ++ lines t := by
  fun_induction lines s with
  | case1 => exact lines_break_cons t
  | case2 cs ih =>
    rw [List.cons_append, List.cons_append, lines_break_cons, lines_break_cons, ih,
      List.cons_append]
  | case3 cs ih =>
    simp only [List.cons_append, lines_return_cons, ih]
  | case4 c cs hn hr ih =>
    cases cs with
    | nil =>
      by_cases hc : c = '\r'
      · subst hc
        exact lines_return_cons t
      · have hcons := fun u => lines_cons hn hc ('\n' :: u)
        rw [List.cons_append, List.cons_append, List.nil_append, List.nil_append, hcons, hcons,
          lines_break_cons, lines_break_cons]
        rfl
    | cons d ds =>
      have hcons : ∀ u, lines (c :: (d :: ds ++ u)) = consFirst c (lines (d :: ds ++ u)) := by
        refine fun u => lines_cons_of_not_break hn fun v hc hv => hr ds hc ?_
        rw [(List.cons_eq_cons.1 hv).1]
      calc lines (c :: (d :: ds ++ '\n' :: t))
          = consFirst c (lines (d :: ds ++ ['\n']) ++ lines t) := by rw [hcons, ih]
        _ = consFirst c (lines (d :: ds ++ ['\n'])) ++ lines t :=
          consFirst_append c (lines_ne_nil (List.cons_ne_nil _ _)) _
        _ = lines (c :: (d :: ds ++ ['\n'])) ++ lines t := by rw [hcons]

/-- A character that ends no line grows the last line, or is a line of its own behind a line break. -/
theorem lines_concat {c : Char} (hc : c ≠ '\n') (s : Text) :
    lines (s ++ [c]) = lines s ++ [[c]] ∨
      ∃ init l, lines s = init ++ [l] ∧ lines (s ++ [c]) = init ++ [l ++ [c]] := by
  have hone : lines [c] = [[c]] := lines_cons_of_not_break hc fun _ _ => nofun
  fun_induction lines s with
  | case1 => exact .inl hone
  | case2 cs ih =>
    rw [List.cons_append, lines_break_cons]
    rcases ih with h | ⟨init, l, hs, h⟩
    · exact .inl (congrArg ([] :: ·) h)
    · exact .inr ⟨[] :: init, l, congrArg ([] :: ·) hs, congrArg ([] :: ·) h⟩
  | case3 cs ih =>
    rw [List.cons_append, List.cons_append, lines_return_cons]
    rcases ih with h | ⟨init, l, hs, h⟩
    · exact .inl (congrArg ([] :: ·) h)
    · exact .inr ⟨[] :: init, l, congrArg ([] :: ·) hs, congrArg ([] :: ·) h⟩
  | case4 d ds hn hr ih =>
    have hnext : ∀ t, d = '\r' → ds ++ [c] ≠ '\n' :: t := by
      intro t hd ht
      cases ds with
      | nil => exact hc (List.cons.inj ht).1
      | cons e es => exact hr es hd (by rw [(List.cons.inj ht).1])
    rw [List.cons_append, lines_cons_of_not_break hn hnext]
    rcases ih with h | ⟨init, l, hs, h⟩
    · rw [h]
      cases lines ds with
      | nil => exact .inr ⟨[], [d], rfl, rfl⟩
      | cons m ms => exact .inl rfl
    · rw [h, hs]
      cases init with
      | nil => exact .inr ⟨[], d :: l, rfl, rfl⟩
      | cons m ms => exact .inr ⟨(d :: m) :: ms, l, rfl, rfl⟩

/-- The line breaks. -/
def breaks : List Text := [['\n'], ['\r', '\n']]

theorem lines_append_append {brk : Text} (hbrk : brk ∈ breaks) (s t : Text) :
    lines (s ++ brk ++ t) = lines (s ++ brk) ++ lines t := by
  simp only [breaks, List.mem_cons, List.not_mem_nil, or_false] at hbrk
  rcases hbrk with rfl | rfl
  · rw [List.append_assoc]
    exact lines_append_break_append s t
  · have h := lines_append_break_append (s ++ ['\r']) t
    simp only [List.append_assoc, List.singleton_append] at h
    rw [List.append_assoc]
    exact h

/-- What lines are like that come from other lines by a line break at the end. -/
inductive Ended (ls : List Text) : List Text → Prop where
  | same : Ended ls ls
  | empty : Ended ls (ls ++ [[]])
  | unreturned (init : List Text) (l : Text) (h : ls = init ++ [l ++ ['\r']]) :
    Ended ls (init ++ [l])

theorem Ended.cons {ls ms : List Text} (h : Ended ls ms) (l : Text) :
    Ended (l :: ls) (l :: ms) := by
  cases h with
  | same => exact .same
  | empty =>
    rw [← List.cons_append]
    exact .empty
  | unreturned init last h => exact .unreturned (l :: init) last (by rw [h, List.cons_append])

theorem Ended.consFirst {ls ms : List Text} (h : Ended ls ms) (hne : ls ≠ []) (c : Char) :
    Ended (Text.consFirst c ls) (Text.consFirst c ms) := by
  cases h with
  | same => exact .same
  | empty =>
    rw [consFirst_append c hne]
    exact .empty
  | unreturned init last h =>
    subst h
    cases init with
    | nil => exact .unreturned [] (c :: last) rfl
    | cons l ls => exact .unreturned ((c :: l) :: ls) last rfl

/-- A line break at the end leaves the lines in front of the last ones as they are. -/
theorem Ended.of_append {pre ls ms : List Text} (h : Ended (pre ++ ls) ms) (hne : ls ≠ []) :
    ∃ ms', ms = pre ++ ms' ∧ Ended ls ms' := by
  generalize hall : pre ++ ls = all at h
  cases h with
  | same => exact ⟨ls, hall.symm, .same⟩
  | empty => exact ⟨ls ++ [[]], by rw [← hall, List.append_assoc], .empty⟩
  | unreturned init l h =>
    obtain ⟨ls', x, hls⟩ := (List.eq_nil_or_concat ls).resolve_left hne
    rw [List.concat_eq_append] at hls
    rw [h, hls, ← List.append_assoc] at hall
    obtain ⟨rfl, hx⟩ := List.append_inj' hall rfl
    rw [List.singleton_inj.1 hx] at hls
    exact ⟨ls' ++ [l], List.append_assoc _ _ _, .unreturned ls' l hls⟩

theorem ended_lines_append {brk : Text} (hbrk : brk ∈ breaks) (s : Text) :
    Ended (lines s) (lines (s ++ brk)) := by
  simp only [breaks, List.mem_cons, List.not_mem_nil, or_false] at hbrk
  fun_induction lines s with
  | case1 => rcases hbrk with rfl | rfl <;> exact .empty
  | case2 cs ih =>
    rw [List.cons_append, lines_break_cons]
    exact ih.cons []
  | case3 cs ih =>
    rw [List.cons_append, List.cons_append, lines_return_cons]
    exact ih.cons []
  | case4 c cs hn hr ih =>
    cases cs with
    | nil =>
      rw [List.cons_append, List.nil_append]
      rcases hbrk with rfl | rfl
      · by_cases hc : c = '\r'
        · subst hc
          exact .unreturned [] [] rfl
        · rw [lines_cons hn hc]
          exact .same
      · rw [lines_cons_of_not_break hn (by simp)]
        exact .same
    | cons d ds =>
      have hcons : lines (c :: (d :: ds ++ brk)) = Text.consFirst c (lines (d :: ds ++ brk)) := by
        refine lines_cons_of_not_break hn fun v hc hv => hr ds hc ?_
        rw [(List.cons_eq_cons.1 hv).1]
      rw [List.cons_append, hcons]
      exact ih.consFirst (lines_ne_nil (List.cons_ne_nil d ds)) c

end PlainStory.Text
