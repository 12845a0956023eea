import Mathlib.Data.List.Forall2
import PlainStory.Proofs.Text.Basic
import PlainStory.Report.Style

/-!
# Texts without their styles

What is left of a painted text when the style sequences are deleted from it. A text shows another one
if it leaves that one wherever it stands: `Style.Shows` is a statement about what follows, so that it
holds of texts one after another when it holds of each of them, and a sequence that one text began and
another ended could not go unseen.
-/

namespace PlainStory.Style

/-! ### Style sequences -/

/-- Whether a character can stand between the beginning and the end of a style sequence. -/
def isParameter (c : Char) : Bool := c.isDigit || c = ';'

/-- What follows a style sequence at the start of a text, if there is one. -/
def afterSequence? : Text → Option Text
  | c :: d :: s =>
    if c = escape ∧ d = '[' then Text.after? ['m'] (s.dropWhile isParameter) else none
  | _ => none

theorem afterSequence?_eq_some_iff {s rest : Text} : afterSequence? s = some rest ↔
    ∃ code, (∀ c ∈ code, isParameter c = true) ∧ s = sequence code ++ rest := by
  constructor
  · intro h
    rcases s with _ | ⟨c, _ | ⟨d, s⟩⟩
    · cases h
    · cases h
    · rw [afterSequence?] at h
      split at h
      · next hstart =>
        obtain ⟨rfl, rfl⟩ := hstart
        refine ⟨s.takeWhile isParameter, Text.of_mem_takeWhile, ?_⟩
        have hrest := Text.after?_eq_some_iff.1 h
        have hs := List.takeWhile_append_dropWhile (p := isParameter) (l := s)
        rw [hrest] at hs
        rw [sequence, List.append_assoc, List.append_assoc, hs]
        rfl
      · cases h
  · rintro ⟨code, hcode, rfl⟩
    have hdrop : (code ++ 'm' :: rest).dropWhile isParameter = 'm' :: rest :=
      Text.dropWhile_append_eq hcode fun c hc => Option.some.inj hc ▸ rfl
    have hsequence : sequence code ++ rest = escape :: '[' :: (code ++ 'm' :: rest) := by
      simp [sequence]
    rw [hsequence, afterSequence?, if_pos ⟨rfl, rfl⟩, hdrop]
    exact Text.after?_eq_some_iff.2 rfl

theorem afterSequence?_of_ne {c : Char} (hc : c ≠ escape) (s : Text) :
    afterSequence? (c :: s) = none := by
  cases s with
  | nil => rfl
  | cons d s => rw [afterSequence?, if_neg fun h => hc h.1]

/-- A text with all style sequences deleted. -/
def erase : Text → Text
  | [] => []
  | c :: s =>
    match _h : afterSequence? (c :: s) with
    | some rest => erase rest
    | none => c :: erase s
termination_by s => s.length
decreasing_by
  · obtain ⟨code, -, hs⟩ := afterSequence?_eq_some_iff.1 _h
    rw [hs, sequence]
    simp only [List.length_append, List.length_cons]
    omega
  · exact Nat.lt_succ_self _

theorem erase_sequence_append {code : Text} (hcode : ∀ c ∈ code, isParameter c = true)
    (rest : Text) : erase (sequence code ++ rest) = erase rest := by
  have hafter : afterSequence? (sequence code ++ rest) = some rest :=
    afterSequence?_eq_some_iff.2 ⟨code, hcode, rfl⟩
  have hcons : sequence code ++ rest = escape :: ('[' :: code ++ ['m'] ++ rest) := by
    simp [sequence]
  rw [hcons] at hafter ⊢
  rw [erase]
  split
  · next h => rw [hafter] at h; rw [Option.some.inj h]
  · next h => rw [hafter] at h; cases h

theorem erase_cons_of_ne {c : Char} (hc : c ≠ escape) (s : Text) :
    erase (c :: s) = c :: erase s := by
  have hafter := afterSequence?_of_ne hc s
  rw [erase]
  split
  · next h => rw [hafter] at h; cases h
  · rfl

theorem paint_ne_nil {s : Text} (hs : s ≠ []) (painted : Bool) (style : Style) :
    style.paint painted s ≠ [] := by
  cases painted with
  | false => exact hs
  | true => exact List.cons_ne_nil _ _

/-! ### What a painted text shows -/

/-- A painted text shows a plain one if the plain one is left of it, whatever follows. -/
def Shows (painted plain : Text) : Prop := ∀ rest, erase (painted ++ rest) = plain ++ erase rest

namespace Shows

variable {p q p' q' : Text}

theorem erase_eq (h : Shows p q) : erase p = q := by
  have hnil := h []
  rwa [List.append_nil, erase, List.append_nil] at hnil

theorem nil : Shows [] [] := fun _ => rfl

theorem append (h : Shows p q) (h' : Shows p' q') : Shows (p ++ p') (q ++ q') := fun rest => by
  rw [List.append_assoc, h, h', List.append_assoc]

theorem sequence {code : Text} (hcode : ∀ c ∈ code, isParameter c = true) :
    Shows (sequence code) [] :=
  erase_sequence_append hcode

/-- A text without an escape shows itself. -/
theorem of_not_mem {s : Text} (hs : escape ∉ s) : Shows s s := by
  induction s with
  | nil => exact nil
  | cons c s ih =>
    rw [List.mem_cons, not_or] at hs
    intro rest
    rw [List.cons_append, erase_cons_of_ne (Ne.symm hs.1), ih hs.2, List.cons_append]

end Shows

/-! ### Painted texts -/

/-- A plain text with paint on it. No style is on an empty text, so that there is something to write
of a painted text only where there is something to write of the plain one. -/
inductive Painting : Text → Text → Prop where
  | plain {s : Text} (hs : escape ∉ s) : Painting s s
  | append {p q p' q' : Text} (h : Painting p q) (h' : Painting p' q') :
      Painting (p ++ p') (q ++ q')
  | paint {p q : Text} (style : Style) (hq : q ≠ []) (h : Painting p q) :
      Painting (style.paint true p) q

namespace Painting

variable {p q : Text}

theorem code_isParameter (style : Style) : ∀ c ∈ style.code, isParameter c = true :=
  List.all_eq_true.1 (by cases style <;> decide)

theorem reset_isParameter : ∀ c ∈ ("0" : Text), isParameter c = true :=
  List.all_eq_true.1 (by decide)

theorem shows (h : Painting p q) : Shows p q := by
  induction h with
  | plain hs => exact Shows.of_not_mem hs
  | append _ _ ih ih' => exact ih.append ih'
  | paint style _ _ ih =>
    have hall := ((Shows.sequence (code_isParameter style)).append ih).append
      (Shows.sequence reset_isParameter)
    rwa [List.nil_append, List.append_nil] at hall

/-- Deleting the style sequences takes the paint off. -/
theorem erase_eq (h : Painting p q) : erase p = q := h.shows.erase_eq

theorem eq_nil_iff (h : Painting p q) : p = [] ↔ q = [] := by
  induction h with
  | plain => exact Iff.rfl
  | append _ _ ih ih' => rw [List.append_eq_nil_iff, List.append_eq_nil_iff, ih, ih']
  | paint style hq _ _ => exact iff_of_false (List.cons_ne_nil _ _) hq

theorem not_mem_sequence {c : Char} (hc : c = '\n' ∨ c = '\r') {code : Text}
    (hcode : ∀ d ∈ code, isParameter d = true) : c ∉ sequence code := by
  have hbounds : c ∉ [escape, '['] ∧ c ∉ ['m'] ∧ isParameter c = false := by
    rcases hc with rfl | rfl <;> decide
  refine List.not_mem_append (List.not_mem_append hbounds.1 fun hmem => ?_) hbounds.2.1
  exact absurd (hbounds.2.2.symm.trans (hcode c hmem)) nofun

/-- Paint breaks no line. -/
theorem not_mem (h : Painting p q) {c : Char} (hc : c = '\n' ∨ c = '\r') (hq : c ∉ q) : c ∉ p := by
  induction h with
  | plain => exact hq
  | append _ _ ih ih' =>
    rw [List.mem_append, not_or] at hq
    exact List.not_mem_append (ih hq.1) (ih' hq.2)
  | paint style _ _ ih =>
    exact List.not_mem_append
      (List.not_mem_append (not_mem_sequence hc (code_isParameter style)) (ih hq))
      (not_mem_sequence hc reset_isParameter)

/-- A text that is painted or not. -/
theorem painted (h : Painting p q) (hq : q ≠ []) (painted : Bool) (style : Style) :
    Painting (style.paint painted p) q := by
  cases painted with
  | false => exact h
  | true => exact h.paint style hq

theorem paint_plain (style : Style) {s : Text} (hs : escape ∉ s) (hne : s ≠ []) :
    Painting (style.paint true s) (style.paint false s) :=
  (plain hs).paint style hne

theorem plain_lines {ls : List Text} (h : ∀ l ∈ ls, escape ∉ l) : List.Forall₂ Painting ls ls :=
  List.forall₂_same.2 fun l hl => plain (h l hl)

end Painting

end PlainStory.Style
