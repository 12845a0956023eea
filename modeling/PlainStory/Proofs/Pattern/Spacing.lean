import PlainStory.Proofs.Pattern.Literal
import PlainStory.Proofs.Text.Words

/-!
# Blanks in patterns

What the blanks of a pattern mean. Patterns that differ in their runs of blanks, or in the blanks at
their ends, are read as the same pieces, whatever the mark is, and everything that a pattern gives is
given by its pieces.
-/

namespace PlainStory

/-- A name that ends before a text also ends before its narrow form, since no space is in a name. -/
theorem Text.head?_narrow_not_word {s : Text} (hs : ∀ c ∈ s.head?, isWord c = false) :
    ∀ c ∈ (narrow s).head?, isWord c = false := by
  intro c hc
  rw [head?_narrow] at hc
  obtain ⟨d, hd, rfl⟩ := Option.map_eq_some_iff.1 hc
  by_cases hb : isBlank d
  · rw [if_pos hb]
    decide
  · rw [if_neg hb]
    exact hs d hd

namespace Piece

theorem reads_narrow {mark : Char} {s : Text} {ps : List Piece} (h : Reads mark s ps) :
    Reads mark (Text.narrow s) ps := by
  induction h with
  | nil => exact .nil
  | @blank run rest ps hne hrun hrest _ ih =>
    have hspace : ∀ c ∈ [' '], Text.isBlank c = true := List.forall_mem_singleton.2 rfl
    rw [Text.narrow_append_of_blank hne hrun hrest]
    exact .blank (List.cons_ne_nil ' ' []) hspace
      ((Text.respaced_narrow rest).head?_not_blank hrest) ih
  | @slot name rest ps hmark hne hname hrest _ ih =>
    have hrun : ∀ c ∈ mark :: name, Text.isBlank c = false :=
      List.forall_mem_cons.2 ⟨hmark, fun c hc => Text.isBlank_of_isWord (hname c hc)⟩
    rw [Text.narrow_append_of_not_blank hrun]
    exact .slot hmark hne hname (Text.head?_narrow_not_word hrest) ih
  | @char c rest ps hblank hslot _ ih =>
    rw [Text.narrow_cons_of_not_blank hblank]
    exact .char hblank (fun hc => Text.head?_narrow_not_word (hslot hc)) ih

/-- Texts that differ in their runs of blanks are read as the same pieces. -/
theorem ofText_eq_of_respaced {mark : Char} {s t : Text} (h : Text.Respaced s t) :
    ofText mark s = ofText mark t := by
  have hs := eq_ofText_of_reads (reads_narrow (reads_ofText mark s))
  have ht := eq_ofText_of_reads (reads_narrow (reads_ofText mark t))
  rw [hs, ht, h.narrow_eq]

end Piece

namespace Pattern

/-- Whether two patterns have the same names and give the same values for every step. -/
structure Alike (p q : Pattern) : Prop where
  names : p.names = q.names
  values : ∀ step, p.values? step = q.values? step

variable {mark : Char} {s t : Text} {p q : Pattern}

theorem alike_of_pieces_eq (h : p.pieces = q.pieces) : p.Alike q := by
  refine ⟨?_, fun step => ?_⟩
  · unfold names
    rw [h]
  · unfold values? parts?
    rw [h]

/-- A pattern is as good with other blanks, and can be used with them if it can be used at all. -/
theorem exists_alike_of_respaced (h : Text.Respaced (Text.trim s) (Text.trim t))
    (hp : ofText? mark s = .ok p) : ∃ q, ofText? mark t = .ok q ∧ p.Alike q := by
  have hpieces : Piece.ofText mark (Text.trim s) = Piece.ofText mark (Text.trim t) :=
    Piece.ofText_eq_of_respaced h
  have hopen : ¬ maxOpenPieces < (Piece.ofText mark (Text.trim s)).countP Piece.isOpen := by
    intro hlt
    unfold ofText? at hp
    rw [if_pos hlt] at hp
    cases hp
  refine ⟨⟨t, mark, Piece.ofText mark (Text.trim t)⟩, ?_, alike_of_pieces_eq ?_⟩
  · rw [hpieces] at hopen
    unfold ofText?
    rw [if_neg hopen]
  · rw [pieces_of_ofText? hp, hpieces]

/-- Blanks at the ends of a step make no difference to a pattern. -/
theorem values?_append_append (p : Pattern) {front back : Text}
    (hfront : ∀ c ∈ front, Text.isBlank c = true) (hback : ∀ c ∈ back, Text.isBlank c = true)
    (step : Text) : p.values? (front ++ step ++ back) = p.values? step := by
  unfold values? parts?
  rw [Text.trim_append_append hfront hback]

end Pattern

end PlainStory
