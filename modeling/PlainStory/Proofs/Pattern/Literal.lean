import PlainStory.Proofs.Pattern.Cut
import PlainStory.Proofs.Text.Spacing

/-!
# Literals

The parts of a pattern that no placeholder is in. A pattern is read part by part, and so it is cut: a
text can be cut for the pieces of a literal if it is that literal with other blanks in the place of its
blanks.
-/

namespace PlainStory

namespace Text

/-- The code points of the blanks. -/
def blanks : List Char :=
  ['\t', '\n', '\x0b', '\x0c', '\r', ' ', '\x85', '\xa0', '\u1680', '\u2000', '\u2001', '\u2002',
    '\u2003', '\u2004', '\u2005', '\u2006', '\u2007', '\u2008', '\u2009', '\u200a', '\u2028',
    '\u2029', '\u202f', '\u205f', '\u3000']

theorem mem_blanks {c : Char} (hc : isBlank c = true) : c ∈ blanks := by
  have hn : c.toNat ∈ blanks.map Char.toNat := by
    simp only [isBlank, Bool.or_eq_true, Bool.and_eq_true, decide_eq_true_eq, beq_iff_eq] at hc
    simp only [blanks, List.map_cons, List.map_nil, Char.reduceToNat, List.mem_cons]
    omega
  obtain ⟨d, hd, hdc⟩ := List.mem_map.1 hn
  rwa [← Char.toNat_inj.1 hdc]

theorem isBlank_of_isWord {c : Char} (hc : isWord c = true) : isBlank c = false := by
  cases hb : isBlank c with
  | false => rfl
  | true =>
    have hall : blanks.all (fun d => !isWord d) = true := by decide +kernel
    have hnot := List.all_eq_true.1 hall c (mem_blanks hb)
    rw [hc] at hnot
    exact absurd hnot nofun

end Text

namespace Piece

/-! ### Reading a pattern part by part -/

theorem reads_append {mark : Char} {l rest : Text} {ps qs : List Piece} (hl : Reads mark l ps)
    (hmark : mark ∉ l) (hhead : ∀ c ∈ rest.head?, Text.isBlank c = false)
    (hrest : Reads mark rest qs) : Reads mark (l ++ rest) (ps ++ qs) := by
  induction hl with
  | nil => exact hrest
  | @blank run l ps hne hrun hlhead _ ih =>
    rw [List.append_assoc]
    refine .blank hne hrun ?_ (ih fun h => hmark (List.mem_append_right _ h))
    intro c hc
    cases l with
    | nil => exact hhead c hc
    | cons d ds => exact hlhead c hc
  | slot => exact absurd List.mem_cons_self hmark
  | char hblank _ _ ih =>
    rw [List.mem_cons, not_or] at hmark
    exact .char hblank (fun h => absurd h.symm hmark.1) (ih hmark.2)

/-- A text without a mark that no blank follows is read for itself. -/
theorem ofText_append {mark : Char} {l rest : Text} (hmark : mark ∉ l)
    (hhead : ∀ c ∈ rest.head?, Text.isBlank c = false) :
    ofText mark (l ++ rest) = ofText mark l ++ ofText mark rest :=
  (eq_ofText_of_reads
    (reads_append (reads_ofText mark l) hmark hhead (reads_ofText mark rest))).symm

theorem ofText_slot {mark : Char} {name rest : Text} (hblank : Text.isBlank mark = false)
    (hne : name ≠ []) (hname : ∀ c ∈ name, Text.isWord c = true)
    (hhead : ∀ c ∈ rest.head?, Text.isWord c = false) :
    ofText mark (mark :: name ++ rest) = slot name :: ofText mark rest :=
  (eq_ofText_of_reads (.slot hblank hne hname hhead (reads_ofText mark rest))).symm

/-! ### Cutting a text part by part -/

theorem isCut_append_iff {ps qs : List Piece} {s : Text} {cut : Cut} :
    IsCut (ps ++ qs) s cut ↔
      ∃ s₁ s₂ cut₁ cut₂, s = s₁ ++ s₂ ∧ cut = cut₁ ++ cut₂ ∧ IsCut ps s₁ cut₁ ∧
        IsCut qs s₂ cut₂ := by
  constructor
  · rintro ⟨hp, ht, rfl⟩
    obtain ⟨cut₁, cut₂, rfl, hp₁, hp₂⟩ := List.map_eq_append_iff.1 hp
    obtain ⟨ht₁, ht₂⟩ := List.forall_mem_append.1 ht
    refine ⟨_, _, cut₁, cut₂, ?_, rfl, ⟨hp₁, ht₁, rfl⟩, ⟨hp₂, ht₂, rfl⟩⟩
    rw [List.map_append, List.flatten_append]
  · rintro ⟨s₁, s₂, cut₁, cut₂, rfl, rfl, ⟨hp₁, ht₁, rfl⟩, ⟨hp₂, ht₂, rfl⟩⟩
    refine ⟨by rw [List.map_append, hp₁, hp₂], List.forall_mem_append.2 ⟨ht₁, ht₂⟩, ?_⟩
    rw [List.map_append, List.flatten_append]

theorem values_append (cut₁ cut₂ : Cut) :
    Cut.values (cut₁ ++ cut₂) = cut₁.values ++ cut₂.values := List.filterMap_append

theorem values_cons_slot (name part : Text) (cut : Cut) :
    Cut.values ((slot name, part) :: cut) = (name, Text.trim part) :: cut.values := rfl

/-! ### Cuts of literals -/

/-- What can be cut for the pieces of a literal has the characters of the literal and other blanks. -/
theorem respaced_of_isCut {mark : Char} {l : Text} {ps : List Piece} (hl : Reads mark l ps)
    (hmark : mark ∉ l) {s : Text} {cut : Cut} (hcut : IsCut ps s cut) :
    Text.Respaced l s ∧ cut.values = [] := by
  induction hl generalizing s cut with
  | nil =>
    obtain ⟨rfl, rfl⟩ := isCut_nil_iff.1 hcut
    exact ⟨.nil, rfl⟩
  | blank hne hrun hhead _ ih =>
    obtain ⟨part, rest, tail, rfl, rfl, ht, htail⟩ := isCut_cons_iff.1 hcut
    obtain ⟨hrest, hvalues⟩ := ih (fun h => hmark (List.mem_append_right _ h)) htail
    cases ht with
    | blank hne' hrun' => exact ⟨.blank hne hrun hne' hrun' hhead hrest, hvalues⟩
  | slot => exact absurd List.mem_cons_self hmark
  | char hblank _ _ ih =>
    obtain ⟨part, rest, tail, rfl, rfl, ht, htail⟩ := isCut_cons_iff.1 hcut
    obtain ⟨hrest, hvalues⟩ := ih (fun h => hmark (List.mem_cons_of_mem _ h)) htail
    cases ht
    exact ⟨.char hblank hrest, hvalues⟩

theorem exists_isCut_of_respaced {mark : Char} {l s : Text} (h : Text.Respaced l s)
    (hmark : mark ∉ l) : ∃ cut, IsCut (ofText mark l) s cut := by
  induction h with
  | nil => exact ⟨[], by rw [ofText_nil, isCut_nil_iff]; exact ⟨rfl, rfl⟩⟩
  | @char c l s hc _ ih =>
    rw [List.mem_cons, not_or] at hmark
    obtain ⟨cut, hcut⟩ := ih hmark.2
    have hl : ofText mark (c :: l) = char c :: ofText mark l :=
      (eq_ofText_of_reads (.char hc (fun h => absurd h.symm hmark.1) (reads_ofText mark l))).symm
    rw [hl]
    exact ⟨_, isCut_cons_iff.2 ⟨[c], s, cut, rfl, rfl, .char c, hcut⟩⟩
  | @blank run run' l s hne hrun hne' hrun' hhead _ ih =>
    obtain ⟨cut, hcut⟩ := ih fun h => hmark (List.mem_append_right _ h)
    have hl : ofText mark (run ++ l) = blank :: ofText mark l :=
      (eq_ofText_of_reads (.blank hne hrun hhead (reads_ofText mark l))).symm
    rw [hl]
    exact ⟨_, isCut_cons_iff.2 ⟨run', s, cut, rfl, rfl, .blank hne' hrun', hcut⟩⟩

/-- The cuts of a literal are the texts with its characters and other blanks in the place of its
blanks, and hold no values. -/
theorem exists_isCut_literal_iff {mark : Char} {l s : Text} (hmark : mark ∉ l)
    {values : List (Text × Text)} :
    (∃ cut, IsCut (ofText mark l) s cut ∧ cut.values = values) ↔
      Text.Respaced l s ∧ values = [] := by
  constructor
  · rintro ⟨cut, hcut, rfl⟩
    exact respaced_of_isCut (reads_ofText mark l) hmark hcut
  · rintro ⟨h, rfl⟩
    obtain ⟨cut, hcut⟩ := exists_isCut_of_respaced h hmark
    exact ⟨cut, hcut, (respaced_of_isCut (reads_ofText mark l) hmark hcut).2⟩

end Piece

end PlainStory
