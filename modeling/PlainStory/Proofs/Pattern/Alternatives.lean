import Mathlib.Data.List.Forall2
import Mathlib.Data.List.GetD
import PlainStory.Pattern.Variants
import PlainStory.Proofs.Repetition
import PlainStory.Proofs.Text.Words

/-!
# Alternatives of a pattern

Every pattern can be read in one way as literals with directives between them. The main statement is
that it stands for the texts that come of all choices of one alternative for each directive, in
lexicographic order, with narrow blanks, and each text once.
-/

namespace PlainStory

namespace Text

variable {mark : Char} {s front rest : Text}

/-- A text is cut at the first place of a character. -/
theorem cut?_singleton_eq_some_iff :
    cut? [mark] s = some (front, rest) ↔ s = front ++ mark :: rest ∧ mark ∉ front := by
  induction s generalizing front with
  | nil =>
    rw [cut?, if_neg (List.cons_ne_nil mark [])]
    constructor
    · exact fun h => absurd h (Option.some_ne_none _).symm
    · rintro ⟨h, -⟩
      exact absurd h.symm (List.append_ne_nil_of_right_ne_nil front (List.cons_ne_nil mark rest))
  | cons c cs ih =>
    by_cases hc : mark = c
    · subst hc
      have hcut : cut? [mark] (mark :: cs) = some ([], cs) :=
        cut?_self_append (List.cons_ne_nil mark []) cs
      rw [hcut]
      cases front with
      | nil => simp [eq_comm]
      | cons d ds => simp +contextual [eq_comm]
    · have hno : ¬ [mark] <+: c :: cs := fun h => hc (List.cons_prefix_cons.1 h).1
      rw [cut?_cons_of_not_isPrefix hno, Option.map_eq_some_iff]
      constructor
      · rintro ⟨⟨f, r⟩, hf, he⟩
        obtain ⟨rfl, rfl⟩ := Prod.mk.inj he
        obtain ⟨rfl, hmark⟩ := ih.1 hf
        exact ⟨rfl, by rw [List.mem_cons, not_or]; exact ⟨hc, hmark⟩⟩
      · rintro ⟨he, hmark⟩
        cases front with
        | nil => exact absurd (List.cons.inj he).1.symm hc
        | cons d ds =>
          obtain ⟨rfl, rfl⟩ := List.cons.inj he
          rw [List.mem_cons, not_or] at hmark
          exact ⟨(ds, rest), ih.2 ⟨rfl, hmark.2⟩, rfl⟩

end Text

namespace Variants

/-! ### Directives -/

/-- A directive with the literal in front of it. -/
@[ext] structure Directive where
  front : Text
  inside : Text
  no_open : '{' ∉ front
  no_close : '}' ∉ inside

namespace Directive

def text (d : Directive) : Text := d.front ++ '{' :: d.inside ++ ['}']

def alternatives (d : Directive) : List Text := Text.splitAt '|' d.inside

end Directive

/-- A pattern cut at its directives. Behind the last one no opening brace is followed by a closing one. -/
@[ext] structure Reading where
  directives : List Directive
  last : Text
  unclosed : ∀ front rest, last = front ++ '{' :: rest → '}' ∉ rest

variable {s : Text}

theorem directive?_eq_some_iff {front inside rest : Text} :
    directive? s = some (front, inside, rest) ↔
      s = front ++ '{' :: (inside ++ '}' :: rest) ∧ '{' ∉ front ∧ '}' ∉ inside := by
  simp only [directive?, Option.bind_eq_bind, Option.bind_eq_some_iff, Prod.exists, Option.pure_def,
    Option.some.injEq, Prod.mk.injEq, Text.cut?_singleton_eq_some_iff]
  constructor
  · rintro ⟨f, r, ⟨rfl, hopen⟩, i, t, ⟨rfl, hclose⟩, rfl, rfl, rfl⟩
    exact ⟨rfl, hopen, hclose⟩
  · rintro ⟨rfl, hopen, hclose⟩
    exact ⟨front, _, ⟨rfl, hopen⟩, inside, rest, ⟨rfl, hclose⟩, rfl, rfl, rfl⟩

theorem directive?_eq_none_iff :
    directive? s = none ↔ ∀ front rest, s = front ++ '{' :: rest → '}' ∉ rest := by
  constructor
  · intro h front rest hs hclose
    have hplace : s = front ++ ['{'] ++ rest := by rw [hs, List.append_assoc, List.singleton_append]
    -- what is behind the first opening brace holds what is behind this one
    obtain ⟨f, r, hcut, hsuffix⟩ := Text.exists_cut?_of_isSuffix hplace (List.suffix_refl s)
    obtain ⟨rfl, hopen⟩ := Text.cut?_singleton_eq_some_iff.1 hcut
    obtain ⟨i, t, rfl, hi⟩ := List.eq_append_cons_of_mem (hsuffix.subset hclose)
    cases h.symm.trans (directive?_eq_some_iff.2 ⟨rfl, hopen, hi⟩)
  · intro h
    by_contra hsome
    obtain ⟨⟨front, inside, rest⟩, hd⟩ := Option.ne_none_iff_exists'.1 hsome
    obtain ⟨rfl, -, -⟩ := directive?_eq_some_iff.1 hd
    exact h front _ rfl (by simp)

theorem continueWith_of_none (done : List Text) (h : directive? s = none) :
    continueWith done s = done.map (· ++ s) := by
  rw [continueWith]
  split
  · rfl
  · next hsome => cases h.symm.trans hsome

theorem continueWith_of_some (done : List Text) {front inside rest : Text}
    (h : directive? s = some (front, inside, rest)) :
    continueWith done s =
      continueWith (done.flatMap fun t => (Text.splitAt '|' inside).map fun o => t ++ front ++ o)
        rest := by
  rw [continueWith]
  split
  · next hnone => cases h.symm.trans hnone
  · next hsome =>
    obtain ⟨rfl, rfl, rfl⟩ : _ ∧ _ ∧ _ := by
      simpa only [Option.some.injEq, Prod.mk.injEq] using h.symm.trans hsome
    rfl

/-! ### Readings -/

namespace Reading

/-- The pattern that is read. -/
def text (R : Reading) : Text := R.directives.flatMap Directive.text ++ R.last

/-- The reading with one more directive in front. -/
def cons (d : Directive) (R : Reading) : Reading := ⟨d :: R.directives, R.last, R.unclosed⟩

theorem text_cons (d : Directive) (R : Reading) :
    (R.cons d).text = d.front ++ '{' :: (d.inside ++ '}' :: R.text) := by
  simp [cons, text, Directive.text]

theorem directive?_text_cons (d : Directive) (R : Reading) :
    directive? (R.cons d).text = some (d.front, d.inside, R.text) :=
  directive?_eq_some_iff.2 ⟨text_cons d R, d.no_open, d.no_close⟩

/-- What holds of readings without directives, and with one more in front, holds of all of them. -/
@[elab_as_elim]
theorem induction {motive : Reading → Prop}
    (bare : ∀ last unclosed, motive ⟨[], last, unclosed⟩)
    (cons : ∀ d R, motive R → motive (R.cons d)) (R : Reading) : motive R := by
  obtain ⟨ds, last, unclosed⟩ := R
  induction ds with
  | nil => exact bare last unclosed
  | cons d ds ih => exact cons d ⟨ds, last, unclosed⟩ ih

/-- Every pattern has a reading. -/
theorem exists_text_eq (pattern : Text) : ∃ R : Reading, R.text = pattern := by
  induction hn : pattern.length using Nat.strongRecOn generalizing pattern with
  | _ n ih =>
    subst hn
    cases hd : directive? pattern with
    | none => exact ⟨⟨[], pattern, directive?_eq_none_iff.1 hd⟩, rfl⟩
    | some parts =>
      obtain ⟨front, inside, rest⟩ := parts
      obtain ⟨heq, hopen, hclose⟩ := directive?_eq_some_iff.1 hd
      obtain ⟨R, hR⟩ := ih _ (length_of_directive? hd) rest rfl
      exact ⟨R.cons ⟨front, inside, hopen, hclose⟩, by rw [text_cons, hR, heq]⟩

/-- No pattern has two readings. -/
theorem text_injective {R S : Reading} (h : R.text = S.text) : R = S := by
  induction R using induction generalizing S with
  | bare last unclosed =>
    have hnone : directive? S.text = none := h ▸ directive?_eq_none_iff.2 unclosed
    cases S using induction with
    | bare last' unclosed' => exact Reading.ext rfl h
    | cons e S => cases hnone.symm.trans (directive?_text_cons e S)
  | cons d R ih =>
    have hsome := directive?_text_cons d R
    rw [h] at hsome
    cases S using induction with
    | bare last' unclosed' =>
      cases hsome.symm.trans (directive?_eq_none_iff.2 unclosed')
    | cons e S =>
      have hparts := Option.some.inj (hsome.symm.trans (directive?_text_cons e S))
      obtain ⟨hfront, hinside, hrest⟩ : _ ∧ _ ∧ _ := by simpa only [Prod.mk.injEq] using hparts
      rw [ih hrest, show d = e from Directive.ext hfront hinside]

end Reading

/-! ### Choices -/

/-- Whether there is an alternative at each of the places. -/
def IsChoice (ds : List Directive) (places : List Nat) : Prop :=
  List.Forall₂ (fun d i => i < d.alternatives.length) ds places

/-- All choices, those that differ in an earlier directive further apart. -/
def choices : List Directive → List (List Nat)
  | [] => [[]]
  | d :: ds => (List.range d.alternatives.length).flatMap fun i => (choices ds).map (i :: ·)

theorem mem_choices {ds : List Directive} {places : List Nat} :
    places ∈ choices ds ↔ IsChoice ds places := by
  unfold IsChoice
  induction ds generalizing places with
  | nil => simp [choices]
  | cons d ds ih =>
    simp only [choices, List.mem_flatMap, List.mem_range, List.mem_map,
      List.forall₂_cons_left_iff, ih]
    constructor
    · rintro ⟨i, hi, more, hmore, rfl⟩
      exact ⟨i, more, hi, hmore, rfl⟩
    · rintro ⟨i, more, hi, hmore, rfl⟩
      exact ⟨i, hi, more, hmore, rfl⟩

theorem pairwise_choices (ds : List Directive) : (choices ds).Pairwise (List.Lex (· < ·)) := by
  induction ds with
  | nil => exact List.pairwise_singleton _ _
  | cons d ds ih =>
    rw [choices, List.pairwise_flatMap]
    constructor
    · intro i _
      rw [List.pairwise_map]
      exact ih.imp List.Lex.cons
    · refine List.pairwise_lt_range.imp fun {i j} hij => ?_
      rw [List.forall_mem_map]
      intro more _
      rw [List.forall_mem_map]
      exact fun more' _ => List.Lex.rel hij

theorem choices_ne_nil (ds : List Directive) : choices ds ≠ [] := by
  have hzeros : IsChoice ds (ds.map fun _ => 0) := by
    unfold IsChoice
    rw [List.forall₂_map_right_iff]
    exact List.forall₂_same.2 fun d _ =>
      List.length_pos_iff.2 (Text.splitAt_ne_nil '|' d.inside)
  exact List.ne_nil_of_mem (mem_choices.2 hzeros)

theorem flatMap_range_getD {α β : Type} (xs : List α) (default : α) (f : α → List β) :
    ((List.range xs.length).flatMap fun i => f (xs.getD i default)) = xs.flatMap f := by
  have hxs : (List.range xs.length).map (xs.getD · default) = xs := by
    refine List.ext_getElem (by simp) fun i _ hi => ?_
    rw [List.getElem_map, List.getElem_range, List.getD_eq_getElem _ _ hi]
  conv_rhs => rw [← hxs, List.flatMap_map]

namespace Reading

/-- The text that comes of taking the alternatives at some places. -/
def choose (R : Reading) (places : List Nat) : Text :=
  (List.zipWith (fun d i => d.front ++ d.alternatives.getD i []) R.directives places).flatten ++ R.last

theorem choose_cons (d : Directive) (R : Reading) (i : Nat) (places : List Nat) :
    (R.cons d).choose (i :: places) = d.front ++ d.alternatives.getD i [] ++ R.choose places := by
  rw [choose, cons, List.zipWith_cons_cons, List.flatten_cons, List.append_assoc, choose]

/-- The texts that come of all choices. -/
def texts (R : Reading) : List Text := (choices R.directives).map R.choose

theorem texts_cons (d : Directive) (R : Reading) :
    (R.cons d).texts = d.alternatives.flatMap fun o => R.texts.map (d.front ++ o ++ ·) := by
  have htexts : (R.cons d).texts = (choices (d :: R.directives)).map (R.cons d).choose := rfl
  rw [htexts, choices, List.map_flatMap, ← flatMap_range_getD d.alternatives []]
  refine List.flatMap_congr fun i _ => ?_
  rw [texts, List.map_map, List.map_map]
  exact List.map_congr_left fun places _ => choose_cons d R i places

/-- What has been chosen goes on with each of the texts for what is to come. -/
theorem continueWith_text (R : Reading) (done : List Text) :
    continueWith done R.text = done.flatMap fun s => R.texts.map (s ++ ·) := by
  induction R using induction generalizing done with
  | bare last unclosed =>
    have hnone : directive? last = none := directive?_eq_none_iff.2 unclosed
    rw [text, List.flatMap_nil, List.nil_append, continueWith_of_none done hnone]
    exact List.map_eq_flatMap
  | cons d R ih =>
    rw [continueWith_of_some done (directive?_text_cons d R), ih, List.flatMap_assoc]
    refine List.flatMap_congr fun s _ => ?_
    rw [texts_cons, List.map_flatMap, List.flatMap_map, Directive.alternatives]
    refine List.flatMap_congr fun o _ => ?_
    rw [List.map_map]
    exact List.map_congr_left fun t _ => by simp only [Function.comp_apply, List.append_assoc]

end Reading

/-! ### The main statement -/

/-- A pattern is read in one way, and stands for the texts that come of all choices of an alternative for
each directive, in lexicographic order, with narrow blanks, and each only where it comes first. -/
theorem expand_reading (pattern : Text) :
    ∃ R : Reading, R.text = pattern ∧ (∀ S : Reading, S.text = pattern → S = R) ∧
      ∃ cs : List (List Nat),
        (∀ places, places ∈ cs ↔ IsChoice R.directives places) ∧
        cs.Pairwise (List.Lex (· < ·)) ∧
        expand pattern =
          (cs.map fun places => Text.join [' '] (Text.words (R.choose places))).eraseDups ∧
        expand pattern ≠ [] ∧ (expand pattern).Nodup := by
  obtain ⟨R, rfl⟩ := Reading.exists_text_eq pattern
  have hdistinct : expand R.text = (R.texts.map Text.squeeze).eraseDups := by
    have hkeys := map_distinctBy id (R.texts.map Text.squeeze)
    rw [List.map_id, List.map_id] at hkeys
    rw [expand, R.continueWith_text, List.flatMap_singleton, List.map_id'' List.nil_append, hkeys]
  have hexpand : expand R.text = ((choices R.directives).map fun places =>
      Text.join [' '] (Text.words (R.choose places))).eraseDups := by
    rw [hdistinct, Reading.texts, List.map_map]
    exact congrArg List.eraseDups
      (List.map_congr_left fun places _ => Text.squeeze_eq_join_words (R.choose places))
  refine ⟨R, rfl, fun S h => Reading.text_injective h, choices R.directives,
    fun places => mem_choices, pairwise_choices R.directives, hexpand, ?_, ?_⟩
  · obtain ⟨places, hplaces⟩ := List.exists_mem_of_ne_nil _ (choices_ne_nil R.directives)
    have hmem := List.mem_map_of_mem (f := fun places =>
      Text.join [' '] (Text.words (R.choose places))) hplaces
    rw [hexpand]
    exact List.ne_nil_of_mem (List.mem_eraseDups.2 hmem)
  · have hnodup := nodup_map_distinctBy id ((continueWith [[]] R.text).map Text.squeeze)
    rwa [List.map_id] at hnodup

/-- Braces within an alternative, one that is not closed, and two choices that come to the same. -/
example :
    expand "\x7ba\x7bb|\x7d c\x7d \x7bd|e|d\x7d  \x7bf" =
      (["a\x7bb c\x7d d \x7bf", "a\x7bb c\x7d e \x7bf", "c\x7d d \x7bf", "c\x7d e \x7bf"] :
        List Text) := by
  cbv

end Variants

end PlainStory
