import Mathlib.Data.List.TakeWhile
import PlainStory.Proofs.Text.Basic

/-!
# Spacing

What two texts have in common that differ in their blanks. `Text.ink` is a text without its blanks,
and `Text.Respaced` says that a text comes from another by putting other blanks in the place of each
run of blanks. Where two texts that begin alike, blanks aside, are parted from what follows them, what
follows is the same up to the blanks at its start.
-/

namespace PlainStory.Text

/-! ### Blanks at the ends -/

theorem blank_eq_false_iff {s : Text} : blank s = false ↔ ∃ c ∈ s, isBlank c = false := by
  simp [blank]

theorem trimStart_append_of_blank {s : Text} (hs : ∀ c ∈ s, isBlank c = true) (t : Text) :
    trimStart (s ++ t) = trimStart t :=
  List.dropWhile_append_of_pos hs

/-- Blanks that a text with another character in it begins with. -/
theorem trimStart_append_of_not_blank {s : Text} (hs : blank s = false) (t : Text) :
    trimStart (s ++ t) = trimStart s ++ t := by
  have hne : (s.dropWhile isBlank).isEmpty = false := by
    obtain ⟨c, hc, hcb⟩ := blank_eq_false_iff.1 hs
    rw [List.isEmpty_eq_false_iff, Ne, List.dropWhile_eq_nil_iff]
    intro hall
    rw [hall c hc] at hcb
    exact absurd hcb nofun
  rw [trimStart, List.dropWhile_append, hne]
  rfl

theorem trimStart_append_cons {c : Char} (hc : isBlank c = false) (s t : Text) :
    trimStart (s ++ c :: t) = trimStart s ++ c :: t := by
  cases hs : blank s with
  | false => exact trimStart_append_of_not_blank hs _
  | true =>
    have hall : ∀ d ∈ s, isBlank d = true := List.all_eq_true.1 hs
    rw [trimStart_append_of_blank hall, trimStart_eq_nil_of_blank hall, List.nil_append]
    exact trimStart_eq_self_iff.2 fun d hd => Option.some.inj hd ▸ hc

theorem trimEnd_append_of_not_blank (s : Text) {t : Text} (ht : blank t = false) :
    trimEnd (s ++ t) = s ++ trimEnd t := by
  have ht' : blank t.reverse = false := by simpa [blank] using ht
  have h := trimStart_append_of_not_blank ht' s.reverse
  rw [trimEnd, List.reverse_append]
  rw [trimStart] at h
  rw [h, List.reverse_append, List.reverse_reverse]
  rfl

theorem blank_append (s t : Text) : blank (s ++ t) = (blank s && blank t) := List.all_append

theorem exists_trimStart (s : Text) :
    ∃ w, (∀ c ∈ w, isBlank c = true) ∧ s = w ++ trimStart s :=
  ⟨s.takeWhile isBlank, of_mem_takeWhile, List.takeWhile_append_dropWhile.symm⟩

theorem exists_trimEnd (s : Text) : ∃ w, (∀ c ∈ w, isBlank c = true) ∧ s = trimEnd s ++ w := by
  obtain ⟨w, hw, hs⟩ := exists_trimStart s.reverse
  refine ⟨w.reverse, by simpa using hw, ?_⟩
  have h := congrArg List.reverse hs
  rwa [List.reverse_reverse, List.reverse_append] at h

theorem trimEnd_eq_nil_of_blank {s : Text} (hs : ∀ c ∈ s, isBlank c = true) : trimEnd s = [] :=
  trimEnd_append_of_blank [] hs

theorem trimEnd_cons_of_blank {c : Char} (hc : isBlank c = false) {s : Text}
    (hs : blank s = true) : trimEnd (c :: s) = [c] := by
  have hend : trimEnd (c :: s) = trimEnd [c] :=
    trimEnd_append_of_blank [c] (List.all_eq_true.1 hs)
  have hone : trimStart [c] = [c] := trimStart_eq_self_iff.2 fun d hd => Option.some.inj hd ▸ hc
  rw [hend, trimEnd, List.reverse_singleton]
  exact congrArg List.reverse hone

/-- A text that ends with a character which is no blank has no blanks at its end. -/
theorem trimEnd_concat {c : Char} (hc : isBlank c = false) (s : Text) :
    trimEnd (s ++ [c]) = s ++ [c] := by
  have hne : blank [c] = false := by simp [blank, hc]
  rw [trimEnd_append_of_not_blank s hne, trimEnd_cons_of_blank hc rfl]

theorem trim_trimStart (s : Text) : trim (trimStart s) = trim s := by
  rw [trim, trimStart_trimStart, trim]

theorem trim_trimEnd (s : Text) : trim (trimEnd s) = trim s := by
  obtain ⟨w, hw, hs⟩ := exists_trimEnd s
  conv_rhs => rw [hs, trim_append_of_blank _ hw]

theorem trim_trim (s : Text) : trim (trim s) = trim s := by
  rw [show trim (trim s) = trim (trimEnd (trimStart s)) from rfl, trim_trimEnd, trim_trimStart]

theorem trim_append_append {front back : Text} (hfront : ∀ c ∈ front, isBlank c = true)
    (hback : ∀ c ∈ back, isBlank c = true) (s : Text) : trim (front ++ s ++ back) = trim s := by
  rw [trim_append_of_blank _ hback, trim, trimStart_append_of_blank hfront, trim]

theorem trim_of_no_blank {s : Text} (hs : ∀ c ∈ s, isBlank c = false) : trim s = s := by
  have hstart : ∀ t : Text, (∀ c ∈ t, isBlank c = false) → trimStart t = t := fun t ht =>
    trimStart_eq_self_iff.2 fun c hc => ht c (List.mem_of_mem_head? hc)
  have hend : trimEnd s = (trimStart s.reverse).reverse := rfl
  rw [trim, hstart s hs, hend, hstart s.reverse (by simpa using hs), List.reverse_reverse]

theorem trimEnd_of_trim {s : Text} (h : trim s = s) : trimEnd s = s := by
  rw [trim, trimStart_of_trim h] at h
  exact h

theorem trim_joinLines_trimStart (s : Text) (ss : List Text) :
    trim (joinLines (trimStart s :: ss)) = trim (joinLines (s :: ss)) := by
  obtain ⟨w, hw, hs⟩ := exists_trimStart s
  conv_rhs => rw [hs, joinLines_append_cons, trim, trimStart_append_of_blank hw, ← trim]

theorem mem_of_mem_trimStart {c : Char} {s : Text} (h : c ∈ trimStart s) : c ∈ s :=
  (List.dropWhile_sublist _).subset h

theorem mem_of_mem_trimEnd {c : Char} {s : Text} (h : c ∈ trimEnd s) : c ∈ s := by
  obtain ⟨w, -, hs⟩ := exists_trimEnd s
  rw [hs]
  exact List.mem_append_left w h

/-- Where anything is left of a text whose end is trimmed, it begins as before. -/
theorem mem_head?_of_trimEnd {c : Char} {s : Text} (h : c ∈ (trimEnd s).head?) : c ∈ s.head? := by
  obtain ⟨w, -, hs⟩ := exists_trimEnd s
  rw [hs, List.head?_append, Option.mem_def.1 h]
  rfl

/-! ### Ink -/

/-- The characters of a text that are no blanks. -/
def ink (s : Text) : Text := s.filter fun c => !isBlank c

@[simp] theorem ink_nil : ink [] = [] := rfl

@[simp] theorem ink_append (s t : Text) : ink (s ++ t) = ink s ++ ink t := List.filter_append s t

theorem ink_cons_of_not_blank {c : Char} (hc : isBlank c = false) (s : Text) :
    ink (c :: s) = c :: ink s := by
  simp [ink, hc]

theorem ink_eq_nil_iff {s : Text} : ink s = [] ↔ ∀ c ∈ s, isBlank c = true := by
  simp [ink, List.filter_eq_nil_iff]

theorem mem_ink {c : Char} (hc : isBlank c = false) {s : Text} : c ∈ ink s ↔ c ∈ s := by
  simp [ink, hc]

theorem count_ink {c : Char} (hc : isBlank c = false) (s : Text) :
    (ink s).count c = s.count c := by
  rw [ink, List.count_filter]
  simp [hc]

theorem ink_trimStart (s : Text) : ink (trimStart s) = ink s := by
  obtain ⟨w, hw, hs⟩ := exists_trimStart s
  conv_rhs => rw [hs, ink_append, ink_eq_nil_iff.2 hw, List.nil_append]

theorem ink_trimEnd (s : Text) : ink (trimEnd s) = ink s := by
  obtain ⟨w, hw, hs⟩ := exists_trimEnd s
  conv_rhs => rw [hs, ink_append, ink_eq_nil_iff.2 hw, List.append_nil]

theorem ink_trim (s : Text) : ink (trim s) = ink s := by
  rw [trim, ink_trimEnd, ink_trimStart]

/-- Lines have their ink one after another, since a line break has none. -/
theorem ink_joinLines (ss : List Text) : ink (joinLines ss) = ss.flatMap ink := by
  induction ss with
  | nil => rfl
  | cons s ss ih =>
    cases ss with
    | nil => simp
    | cons t ts =>
      have hbreak : ink ['\n'] = [] := rfl
      rw [joinLines_cons s (List.cons_ne_nil t ts), List.append_cons, ink_append, ink_append, hbreak,
        ih, List.append_nil, List.flatMap_cons (x := s)]

theorem blank_eq_of_ink_eq {s t : Text} (h : ink s = ink t) : blank s = blank t := by
  rw [Bool.eq_iff_iff, blank, blank, List.all_eq_true, List.all_eq_true, ← ink_eq_nil_iff,
    ← ink_eq_nil_iff, h]

/-! ### Texts with the same ink -/

/-- What follows texts with the same ink is the same up to blanks at its start. -/
theorem trimStart_eq_of_append_eq {s s' t t' : Text} (h : s ++ t = s' ++ t')
    (hink : ink s = ink s') : trimStart t = trimStart t' := by
  rcases List.append_eq_append_iff.1 h with ⟨w, rfl, rfl⟩ | ⟨w, rfl, rfl⟩
  · have hw : ink w = [] := by simpa using hink
    rw [trimStart_append_of_blank (ink_eq_nil_iff.1 hw)]
  · have hw : ink w = [] := by simpa using hink
    rw [trimStart_append_of_blank (ink_eq_nil_iff.1 hw)]

/-- What stands in front of texts with the same ink is the same up to blanks at its end. -/
theorem trimEnd_eq_of_append_eq {s s' t t' : Text} (h : s ++ t = s' ++ t')
    (hink : ink t = ink t') : trimEnd s = trimEnd s' := by
  rcases List.append_eq_append_iff.1 h with ⟨w, rfl, rfl⟩ | ⟨w, rfl, rfl⟩
  · have hw : ink w = [] := by simpa using hink
    rw [trimEnd_append_of_blank _ (ink_eq_nil_iff.1 hw)]
  · have hw : ink w = [] := by simpa using hink
    rw [trimEnd_append_of_blank _ (ink_eq_nil_iff.1 hw)]

/-- A value in front of a text is the same, trimmed, if the text behind it has the same ink. -/
theorem trim_eq_of_append_eq {s s' t t' : Text} (hs : blank s = false)
    (h : trimStart (s' ++ t') = trimStart (s ++ t)) (hink : ink t' = ink t) : trim s' = trim s := by
  have hinks : ink s' = ink s := by
    have hall := congrArg ink h
    rw [ink_trimStart, ink_trimStart, ink_append, ink_append, hink] at hall
    exact List.append_cancel_right hall
  have hs' : blank s' = false := (blank_eq_of_ink_eq hinks).trans hs
  rw [trimStart_append_of_not_blank hs, trimStart_append_of_not_blank hs'] at h
  exact trimEnd_eq_of_append_eq h hink

/-- Two texts that go on with a character which is not in them are the same if the wholes are. -/
theorem append_cons_inj {c : Char} {a a' b b' : Text} (ha : c ∉ a) (ha' : c ∉ a')
    (h : a ++ c :: b = a' ++ c :: b') : a = a' ∧ b = b' := by
  have htake : ∀ {a : Text}, c ∉ a → ∀ b, (a ++ c :: b).takeWhile (fun d => d ≠ c) = a := by
    intro a ha b
    refine takeWhile_append_eq (fun d hd => ?_) (by simp)
    rw [decide_eq_true_eq]
    rintro rfl
    exact ha hd
  have haa : a = a' := by
    rw [← htake ha b, h, htake ha' b']
  subst haa
  exact ⟨rfl, (List.cons_eq_cons.1 (List.append_cancel_left h)).2⟩

/-- Texts with the same ink have their first places of a character in the same place of it. -/
theorem exists_first_place_of_ink {c : Char} (hc : isBlank c = false) {s t : Text}
    (h : ink s = ink t) (hs : c ∈ s) : ∃ a b a' b', s = a ++ c :: b ∧ t = a' ++ c :: b' ∧ c ∉ a ∧
      c ∉ a' ∧ ink a = ink a' ∧ ink b = ink b' := by
  have ht : c ∈ t := by
    rw [← mem_ink hc, ← h, mem_ink hc]
    exact hs
  obtain ⟨a, b, rfl, ha⟩ := List.eq_append_cons_of_mem hs
  obtain ⟨a', b', rfl, ha'⟩ := List.eq_append_cons_of_mem ht
  rw [ink_append, ink_append, ink_cons_of_not_blank hc, ink_cons_of_not_blank hc] at h
  obtain ⟨haa, hbb⟩ := append_cons_inj (by rwa [mem_ink hc]) (by rwa [mem_ink hc]) h
  exact ⟨a, b, a', b', rfl, rfl, ha, ha', haa, hbb⟩

/-! ### Other blanks -/

/-- Whether a text comes from another by putting some blanks in the place of each run of blanks. -/
inductive Respaced : Text → Text → Prop where
  | nil : Respaced [] []
  | char {c : Char} {s t : Text} (hc : isBlank c = false) (h : Respaced s t) :
    Respaced (c :: s) (c :: t)
  | blank {run run' s t : Text} (hne : run ≠ []) (hrun : ∀ c ∈ run, isBlank c = true)
    (hne' : run' ≠ []) (hrun' : ∀ c ∈ run', isBlank c = true)
    (hs : ∀ c ∈ s.head?, isBlank c = false) (h : Respaced s t) : Respaced (run ++ s) (run' ++ t)

theorem Respaced.ink_eq {s t : Text} (h : Respaced s t) : ink s = ink t := by
  induction h with
  | nil => rfl
  | char hc _ ih => rw [ink_cons_of_not_blank hc, ink_cons_of_not_blank hc, ih]
  | blank _ hrun _ hrun' _ _ ih =>
    rw [ink_append, ink_append, ink_eq_nil_iff.2 hrun, ink_eq_nil_iff.2 hrun', ih]

theorem Respaced.blank_eq {s t : Text} (h : Respaced s t) : Text.blank s = Text.blank t :=
  blank_eq_of_ink_eq h.ink_eq

theorem Respaced.head?_not_blank {s t : Text} (h : Respaced s t)
    (hs : ∀ c ∈ s.head?, isBlank c = false) : ∀ c ∈ t.head?, isBlank c = false := by
  cases h with
  | nil => exact hs
  | char hc _ => exact fun d hd => Option.some.inj hd ▸ hc
  | @blank run _ _ _ hne hrun _ _ _ _ =>
    -- The text would begin with a blank of the run.
    obtain ⟨d, ds, rfl⟩ := List.exists_cons_of_ne_nil hne
    have hd := hs d rfl
    rw [hrun d List.mem_cons_self] at hd
    exact absurd hd nofun

theorem Respaced.trimStart {s t : Text} (h : Respaced s t) :
    Respaced (Text.trimStart s) (Text.trimStart t) := by
  cases h with
  | nil => exact .nil
  | @char c s t hc h =>
    have hstart : ∀ u : Text, Text.trimStart (c :: u) = c :: u := fun u =>
      trimStart_eq_self_iff.2 fun d hd => Option.some.inj hd ▸ hc
    rw [hstart s, hstart t]
    exact .char hc h
  | blank _ hrun _ hrun' hs h =>
    rw [trimStart_append_of_blank hrun, trimStart_append_of_blank hrun',
      trimStart_eq_self_iff.2 hs, trimStart_eq_self_iff.2 (h.head?_not_blank hs)]
    exact h

theorem Respaced.trimEnd {s t : Text} (h : Respaced s t) :
    Respaced (Text.trimEnd s) (Text.trimEnd t) := by
  induction h with
  | nil => exact .nil
  | @char c s t hc h ih =>
    cases hs : Text.blank s with
    | true =>
      have ht : Text.blank t = true := h.blank_eq ▸ hs
      rw [trimEnd_cons_of_blank hc hs, trimEnd_cons_of_blank hc ht]
      exact .char hc .nil
    | false =>
      have ht : Text.blank t = false := h.blank_eq ▸ hs
      have hs' := trimEnd_append_of_not_blank [c] hs
      have ht' := trimEnd_append_of_not_blank [c] ht
      rw [List.singleton_append] at hs' ht'
      rw [hs', ht']
      exact .char hc ih
  | @blank run run' s t hne hrun hne' hrun' hs h ih =>
    cases hb : Text.blank s with
    | true =>
      have hb' : Text.blank t = true := h.blank_eq ▸ hb
      have hall : ∀ {r u : Text}, (∀ c ∈ r, isBlank c = true) → Text.blank u = true →
          ∀ c ∈ r ++ u, isBlank c = true := fun hr hu =>
        List.forall_mem_append.2 ⟨hr, List.all_eq_true.1 hu⟩
      rw [trimEnd_eq_nil_of_blank (hall hrun hb), trimEnd_eq_nil_of_blank (hall hrun' hb')]
      exact .nil
    | false =>
      have hb' : Text.blank t = false := h.blank_eq ▸ hb
      rw [trimEnd_append_of_not_blank run hb, trimEnd_append_of_not_blank run' hb']
      exact .blank hne hrun hne' hrun' (fun c hc => hs c (mem_head?_of_trimEnd hc)) ih

/-! ### Single spaces -/

theorem narrow_cons_of_not_blank {c : Char} (hc : isBlank c = false) (s : Text) :
    narrow (c :: s) = c :: narrow s := by
  cases s <;> simp [narrow, hc]

theorem narrow_append_of_blank {run s : Text} (hne : run ≠ [])
    (hrun : ∀ c ∈ run, isBlank c = true) (hs : ∀ c ∈ s.head?, isBlank c = false) :
    narrow (run ++ s) = ' ' :: narrow s := by
  induction run with
  | nil => exact absurd rfl hne
  | cons c cs ih =>
    obtain ⟨hc, hcs⟩ := List.forall_mem_cons.1 hrun
    cases cs with
    | nil =>
      cases s with
      | nil => simp [narrow, hc]
      | cons d ds => simp [narrow, hc, hs d rfl]
    | cons d ds =>
      have hd : isBlank d = true := hcs d List.mem_cons_self
      rw [← ih (List.cons_ne_nil d ds) hcs]
      simp [narrow, hc, hd]

/-- The first character of a text, or its first run of blanks, cut off, with its narrow form. -/
theorem exists_narrow_eq (s : Text) (hne : s ≠ []) :
    (∃ c t, s = c :: t ∧ isBlank c = false ∧ narrow s = c :: narrow t) ∨
      ∃ run t, s = run ++ t ∧ run ≠ [] ∧ (∀ c ∈ run, isBlank c = true) ∧
        (∀ c ∈ t.head?, isBlank c = false) ∧ narrow s = ' ' :: narrow t := by
  obtain ⟨run, t, rfl, hrun, ht⟩ := exists_run isBlank s
  by_cases hnil : run = []
  · subst hnil
    cases t with
    | nil => exact absurd rfl hne
    | cons c t =>
      have hc : isBlank c = false := ht c rfl
      exact .inl ⟨c, t, rfl, hc, narrow_cons_of_not_blank hc t⟩
  · exact .inr ⟨run, t, rfl, hnil, hrun, ht, narrow_append_of_blank hnil hrun ht⟩

theorem Respaced.narrow_eq {s t : Text} (h : Respaced s t) : narrow s = narrow t := by
  induction h with
  | nil => rfl
  | char hc _ ih => rw [narrow_cons_of_not_blank hc, narrow_cons_of_not_blank hc, ih]
  | blank hne hrun hne' hrun' hs h ih =>
    rw [narrow_append_of_blank hne hrun hs,
      narrow_append_of_blank hne' hrun' (h.head?_not_blank hs), ih]

theorem narrow_eq_nil_iff {s : Text} : narrow s = [] ↔ s = [] := by
  constructor
  · intro h
    by_contra hne
    rcases exists_narrow_eq s hne with ⟨c, t, -, -, hs⟩ | ⟨run, t, -, -, -, -, hs⟩
    · exact absurd (hs.symm.trans h) (List.cons_ne_nil _ _)
    · exact absurd (hs.symm.trans h) (List.cons_ne_nil _ _)
  · rintro rfl
    rfl

theorem respaced_of_narrow_eq {s t : Text} (h : narrow s = narrow t) : Respaced s t := by
  -- A run of blanks goes at once, so the induction is on the length.
  induction hn : s.length using Nat.strong_induction_on generalizing s t with
  | _ n ih =>
    subst hn
    by_cases hs : s = []
    · subst hs
      obtain rfl := narrow_eq_nil_iff.1 h.symm
      exact .nil
    have ht : t ≠ [] := fun ht => hs (narrow_eq_nil_iff.1 (h.trans (narrow_eq_nil_iff.2 ht)))
    have hspace : isBlank ' ' = true := rfl
    rcases exists_narrow_eq s hs with ⟨c, s, rfl, hc, hcs⟩ | ⟨run, s, rfl, hne, hrun, hhead, hcs⟩
    · rcases exists_narrow_eq t ht with ⟨d, t, rfl, -, hdt⟩ | ⟨run', t, rfl, -, -, -, hdt⟩
      · obtain ⟨rfl, hst⟩ := List.cons_eq_cons.1 (hcs.symm.trans (h.trans hdt))
        exact .char hc (ih s.length (Nat.lt_succ_self _) hst rfl)
      · obtain ⟨rfl, -⟩ := List.cons_eq_cons.1 (hcs.symm.trans (h.trans hdt))
        exact absurd (hspace.symm.trans hc) nofun
    · rcases exists_narrow_eq t ht with ⟨d, t, rfl, hd, hdt⟩ | ⟨run', t, rfl, hne', hrun', -, hdt⟩
      · obtain ⟨hd', -⟩ := List.cons_eq_cons.1 (hcs.symm.trans (h.trans hdt))
        rw [← hd', hspace] at hd
        exact absurd hd nofun
      · obtain ⟨-, hst⟩ := List.cons_eq_cons.1 (hcs.symm.trans (h.trans hdt))
        have hlen := List.length_pos_iff.2 hne
        have hlt : s.length < (run ++ s).length := by
          rw [List.length_append]
          omega
        exact .blank hne hrun hne' hrun' hhead (ih s.length hlt hst rfl)

/-- Texts differ in their runs of blanks only if they are the same with single spaces. -/
theorem respaced_iff {s t : Text} : Respaced s t ↔ narrow s = narrow t :=
  ⟨Respaced.narrow_eq, respaced_of_narrow_eq⟩

theorem Respaced.symm {s t : Text} (h : Respaced s t) : Respaced t s :=
  respaced_iff.2 h.narrow_eq.symm

instance (s t : Text) : Decidable (Respaced s t) := decidable_of_iff _ respaced_iff.symm

/-- With narrow blanks a text begins as before, with a space for a blank. -/
theorem head?_narrow (s : Text) :
    (narrow s).head? = s.head?.map fun c => if isBlank c then ' ' else c := by
  by_cases hne : s = []
  · subst hne
    rfl
  rcases exists_narrow_eq s hne with ⟨c, t, rfl, hc, hs⟩ | ⟨run, t, rfl, hrun, hblank, -, hs⟩
  · simp [hs, hc]
  · obtain ⟨c, cs, rfl⟩ := List.exists_cons_of_ne_nil hrun
    rw [hs]
    simp [hblank c List.mem_cons_self]

theorem narrow_narrow (s : Text) : narrow (narrow s) = narrow s := by
  -- A run of blanks goes at once, so the induction is on the length.
  induction hn : s.length using Nat.strong_induction_on generalizing s with
  | _ n ih =>
    subst hn
    by_cases hne : s = []
    · subst hne
      rfl
    rcases exists_narrow_eq s hne with ⟨c, t, rfl, hc, hs⟩ | ⟨run, t, rfl, hrun, -, hhead, hs⟩
    · have ht := ih t.length (by simp) t rfl
      rw [hs, narrow_cons_of_not_blank hc, ht]
    · have hlen := List.length_pos_iff.2 hrun
      have ht := ih t.length (by rw [List.length_append]; omega) t rfl
      have hspace : ∀ c ∈ [' '], isBlank c = true := List.forall_mem_singleton.2 rfl
      have hhead' : ∀ c ∈ (narrow t).head?, isBlank c = false := by
        intro c hc
        rw [head?_narrow] at hc
        obtain ⟨d, hd, rfl⟩ := Option.map_eq_some_iff.1 hc
        simp [hhead d hd]
      have hcons := narrow_append_of_blank (List.cons_ne_nil ' ' []) hspace hhead'
      rw [List.singleton_append, ht] at hcons
      rw [hs, hcons]

theorem respaced_narrow (s : Text) : Respaced s (narrow s) := respaced_iff.2 (narrow_narrow s).symm

theorem respaced_trim_squeeze (s : Text) : Respaced (trim s) (trim (squeeze s)) := by
  have h := (respaced_narrow (trim s)).trimStart.trimEnd
  rwa [← trim, ← trim, trim_trim] at h

end PlainStory.Text
