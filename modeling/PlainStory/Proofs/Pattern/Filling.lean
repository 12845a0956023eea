import Mathlib.Data.List.Forall2
import PlainStory.Proofs.Pattern.Literal

/-!
# Patterns and the steps that fill them

A pattern is written as a literal and, behind it, placeholders each with a literal of its own. A step
fills it by a value for each placeholder and by literals with other blanks. The main statement is that
the values come back from such a step, where some character parts the literals from the values.

A pattern tries long values first and can find the text of a literal in other places than the one it
was put in. So every cut of the step is compared with the one it was filled by: the values of a cut
hold no more of the parting character than the values of the step, which is none, and so the literals
of both have it in the same places.
-/

namespace PlainStory

open Text Piece

/-- A placeholder of a pattern with the literal behind it, and what a step has in their places. -/
structure Filling (mark : Char) where
  name : Text
  literal : Text
  value : Text
  /-- The literal as the step has it. -/
  spoken : Text
  name_ne_nil : name ≠ []
  isWord_name : ∀ c ∈ name, isWord c = true
  mark_notMem : mark ∉ literal
  head?_literal : ∀ c ∈ literal.head?, isWord c = false
  value_not_blank : Text.blank value = false
  respaced : Respaced literal spoken

namespace Filling

variable {mark : Char}

/-- What a filling is in the pattern. -/
def written (f : Filling mark) : Text := mark :: f.name ++ f.literal

/-- What a filling is in the step. -/
def filled (f : Filling mark) : Text := f.value ++ f.spoken

def pieces (f : Filling mark) : List Piece := slot f.name :: ofText mark f.literal

/-- The placeholder with its value as a pattern gives it. -/
def entry (f : Filling mark) : Text × Text := (f.name, trim f.value)

/-- Whether a character is in every literal that two placeholders stand around, and in no value. -/
structure Parted (c : Char) (fs : List (Filling mark)) : Prop where
  literal : ∀ f ∈ fs.dropLast, c ∈ f.literal
  value : ∀ f ∈ fs, c ∉ f.value

theorem Parted.tail {c : Char} {f : Filling mark} {fs : List (Filling mark)}
    (h : Parted c (f :: fs)) : Parted c fs := by
  refine ⟨?_, (List.forall_mem_cons.1 h.value).2⟩
  cases fs with
  | nil => exact nofun
  | cons g gs => exact (List.forall_mem_cons.1 h.literal).2

/-! ### The pieces of a pattern -/

theorem head?_written (fs : List (Filling mark)) :
    ∀ c ∈ (fs.flatMap written).head?, c = mark := by
  cases fs with
  | nil => exact nofun
  | cons f fs => exact fun c hc => (Option.some.inj hc).symm

theorem ofText_written (hblank : isBlank mark = false) (hword : isWord mark = false)
    (fs : List (Filling mark)) : ofText mark (fs.flatMap written) = fs.flatMap pieces := by
  induction fs with
  | nil => exact ofText_nil mark
  | cons f fs ih =>
    have hhead : ∀ c ∈ (f.literal ++ fs.flatMap written).head?, isWord c = false := by
      intro c hc
      cases hl : f.literal with
      | nil =>
        rw [hl] at hc
        exact head?_written fs c hc ▸ hword
      | cons d ds =>
        rw [hl] at hc
        exact f.head?_literal c (hl ▸ hc)
    rw [List.flatMap_cons, written, List.append_assoc,
      ofText_slot hblank f.name_ne_nil f.isWord_name hhead,
      ofText_append f.mark_notMem fun c hc => head?_written fs c hc ▸ hblank, ih,
      List.flatMap_cons, pieces, List.cons_append]

/-- The cuts of the placeholders with their literals, by what falls to each of them. -/
theorem exists_isCut_iff (fs : List (Filling mark)) {s : Text} {values : List (Text × Text)} :
    (∃ cut, IsCut (fs.flatMap pieces) s cut ∧ cut.values = values) ↔
      ∃ rows : List (Text × Text), s = rows.flatMap (fun r => r.1 ++ r.2) ∧
        List.Forall₂ (fun f r => Respaced f.literal r.2) fs rows ∧
        values = List.zipWith (fun f r => (f.name, trim r.1)) fs rows := by
  induction fs generalizing s values with
  | nil =>
    constructor
    · rintro ⟨cut, hcut, rfl⟩
      obtain ⟨rfl, rfl⟩ := isCut_nil_iff.1 hcut
      exact ⟨[], rfl, .nil, rfl⟩
    · rintro ⟨rows, rfl, hrows, rfl⟩
      cases hrows
      exact ⟨[], isCut_nil_iff.2 ⟨rfl, rfl⟩, rfl⟩
  | cons f fs ih =>
    rw [List.flatMap_cons, pieces, List.cons_append]
    constructor
    · rintro ⟨cut, hcut, rfl⟩
      obtain ⟨part, rest, tail, rfl, rfl, -, htail⟩ := isCut_cons_iff.1 hcut
      obtain ⟨l, rest, cut₁, cut₂, rfl, rfl, hcut₁, hcut₂⟩ := isCut_append_iff.1 htail
      obtain ⟨hl, hnone⟩ := (exists_isCut_literal_iff f.mark_notMem).1 ⟨cut₁, hcut₁, rfl⟩
      obtain ⟨rows, rfl, hrows, hvalues⟩ := ih.1 ⟨cut₂, hcut₂, rfl⟩
      refine ⟨(part, l) :: rows, ?_, .cons hl hrows, ?_⟩
      · rw [List.flatMap_cons, List.append_assoc]
      · rw [values_cons_slot, values_append, hnone, List.nil_append, hvalues, List.zipWith_cons_cons]
    · rintro ⟨rows, rfl, hrows, rfl⟩
      cases hrows with
      | @cons _ r _ rows hl hrows =>
        obtain ⟨cut₁, hcut₁, hnone⟩ := (exists_isCut_literal_iff f.mark_notMem).2 ⟨hl, rfl⟩
        obtain ⟨cut₂, hcut₂, hvalues⟩ := ih.2 ⟨rows, rfl, hrows, rfl⟩
        refine ⟨(slot f.name, r.1) :: (cut₁ ++ cut₂), ?_, ?_⟩
        · rw [List.flatMap_cons, List.append_assoc]
          exact isCut_cons_iff.2 ⟨r.1, _, _, rfl, rfl, .slot f.name r.1,
            isCut_append_iff.2 ⟨_, _, _, _, rfl, rfl, hcut₁, hcut₂⟩⟩
        · rw [values_cons_slot, values_append, hnone, List.nil_append, hvalues,
            List.zipWith_cons_cons]

/-! ### Every cut is the same -/

section

variable {c : Char} {fs : List (Filling mark)} {rows : List (Text × Text)}

/-- What the literals of two cuts have in common of a character drops out of the count. -/
theorem count_rows (hc : isBlank c = false)
    (hrows : List.Forall₂ (fun f r => Respaced f.literal r.2) fs rows)
    (hvalue : ∀ f ∈ fs, c ∉ f.value) :
    (rows.flatMap fun r => r.1 ++ r.2).count c =
      (fs.flatMap filled).count c + (rows.flatMap Prod.fst).count c := by
  induction hrows with
  | nil => rfl
  | @cons f r fs rows hl _ ih =>
    obtain ⟨hv, hvalue⟩ := List.forall_mem_cons.1 hvalue
    have hspoken : r.2.count c = f.spoken.count c := by
      rw [← count_ink hc, ← hl.ink_eq, f.respaced.ink_eq, count_ink hc]
    have hnone : f.value.count c = 0 := List.count_eq_zero.2 hv
    have hfilled : f.filled.count c = f.value.count c + f.spoken.count c := List.count_append
    simp only [List.flatMap_cons, List.count_append, ih hvalue, hspoken, hfilled, hnone]
    omega

theorem not_mem_rows (hc : isBlank c = false)
    (hrows : List.Forall₂ (fun f r => Respaced f.literal r.2) fs rows)
    (hvalue : ∀ f ∈ fs, c ∉ f.value)
    (h : trimStart (rows.flatMap fun r => r.1 ++ r.2) = trimStart (fs.flatMap filled)) :
    ∀ r ∈ rows, c ∉ r.1 := by
  have hcount := count_rows hc hrows hvalue
  rw [← count_ink hc, ← ink_trimStart, h, ink_trimStart, count_ink hc] at hcount
  have hzero : (rows.flatMap Prod.fst).count c = 0 := by omega
  intro r hr hmem
  exact List.count_eq_zero.1 hzero (List.mem_flatMap_of_mem hr hmem)

/-- Rows that hold the same text, up to blanks at its start, hold the same values. The first literal
of both goes up to its parting character in the same place, and what is behind it starts the rest. -/
theorem zipWith_eq_map_entry (hc : isBlank c = false)
    (hrows : List.Forall₂ (fun f r => Respaced f.literal r.2) fs rows) (hparted : Parted c fs)
    (hfree : ∀ r ∈ rows, c ∉ r.1)
    (h : trimStart (rows.flatMap fun r => r.1 ++ r.2) = trimStart (fs.flatMap filled)) :
    List.zipWith (fun f r => (f.name, trim r.1)) fs rows = fs.map entry := by
  induction hrows with
  | nil => rfl
  | @cons f r fs rows hl hrows ih =>
    have hink : ink f.spoken = ink r.2 := by rw [← f.respaced.ink_eq, hl.ink_eq]
    rw [List.flatMap_cons, List.flatMap_cons, filled] at h
    suffices hboth : trim r.1 = trim f.value ∧
        List.zipWith (fun f r => (f.name, trim r.1)) fs rows = fs.map entry by
      rw [List.zipWith_cons_cons, hboth.1, hboth.2]
      rfl
    cases fs with
    | nil =>
      cases hrows
      rw [List.flatMap_nil, List.flatMap_nil, List.append_nil, List.append_nil] at h
      exact ⟨trim_eq_of_append_eq f.value_not_blank h hink.symm, rfl⟩
    | cons g gs =>
      obtain ⟨hcr, hfree⟩ := List.forall_mem_cons.1 hfree
      have hcf : c ∉ f.value := hparted.value f List.mem_cons_self
      have hcs : c ∈ f.spoken := by
        rw [← mem_ink hc, ← f.respaced.ink_eq, mem_ink hc]
        exact hparted.literal f List.mem_cons_self
      obtain ⟨a, b, a', b', ha, ha', hca, hca', hinka, hinkb⟩ := exists_first_place_of_ink hc hink hcs
      have hassoc : ∀ v a b rest : Text, v ++ (a ++ c :: b) ++ rest = (v ++ a) ++ c :: (b ++ rest) :=
        fun v a b rest => by simp only [List.append_assoc, List.cons_append]
      rw [ha, ha', hassoc, hassoc, trimStart_append_cons hc, trimStart_append_cons hc] at h
      -- The characters in front of the first parting character hold no other one.
      have hnone : ∀ {v a : Text}, c ∉ v → c ∉ a → c ∉ trimStart (v ++ a) := by
        intro v a hv ha hmem
        rcases List.mem_append.1 (mem_of_mem_trimStart hmem) with h | h
        · exact hv h
        · exact ha h
      obtain ⟨hfront, hback⟩ := append_cons_inj (hnone hcr hca') (hnone hcf hca) h
      exact ⟨trim_eq_of_append_eq f.value_not_blank hfront hinka.symm,
        ih hparted.tail hfree (trimStart_eq_of_append_eq hback hinkb.symm)⟩

end

/-! ### Trimming -/

/-- What of a filling blanks at the ends of its value, or in its literal, do not change. -/
def key (f : Filling mark) : Text × Text × Text := (f.name, trim f.value, ink f.literal)

theorem map_entry_of_map_key {fs gs : List (Filling mark)} (h : fs.map key = gs.map key) :
    fs.map entry = gs.map entry := by
  have hentry : ∀ hs : List (Filling mark),
      hs.map entry = (hs.map key).map fun k => (k.1, k.2.1) := fun hs => by
    rw [List.map_map]
    rfl
  rw [hentry, hentry, h]

theorem parted_iff {c : Char} (hc : isBlank c = false) {fs : List (Filling mark)} :
    Parted c fs ↔
      (∀ k ∈ (fs.map key).dropLast, c ∈ k.2.2) ∧ ∀ k ∈ fs.map key, c ∉ k.2.1 := by
  have htrim : ∀ s : Text, c ∈ trim s ↔ c ∈ s := fun s => by
    rw [← mem_ink hc, ink_trim, mem_ink hc]
  rw [← List.map_dropLast, List.forall_mem_map, List.forall_mem_map]
  simp only [key, htrim, mem_ink hc]
  exact ⟨fun h => ⟨h.literal, h.value⟩, fun h => ⟨h.1, h.2⟩⟩

/-- A filling with no blanks at the end of the pattern and of the step. -/
theorem exists_trimEnd (f : Filling mark) :
    ∃ g : Filling mark, g.key = f.key ∧ (∀ s, Text.trimEnd (s ++ f.written) = s ++ g.written) ∧
      ∀ s, Text.trimEnd (s ++ f.filled) = s ++ g.filled := by
  cases hb : Text.blank f.literal with
  | true =>
    have hspoken : Text.blank f.spoken = true := f.respaced.blank_eq ▸ hb
    have hvalue : Text.blank (Text.trimEnd f.value) = false :=
      (blank_eq_of_ink_eq (ink_trimEnd f.value)).trans f.value_not_blank
    refine ⟨{ f with
        literal := [], value := Text.trimEnd f.value, spoken := [],
        mark_notMem := nofun, head?_literal := nofun, value_not_blank := hvalue,
        respaced := .nil }, ?_, fun s => ?_, fun s => ?_⟩
    · rw [key, key, trim_trimEnd, ink_eq_nil_iff.2 (List.all_eq_true.1 hb), ink_nil]
    · -- The name is at the end now, and a name has no blanks.
      obtain ⟨front, c, hname⟩ := (List.eq_nil_or_concat f.name).resolve_left f.name_ne_nil
      have hc : isBlank c = false := isBlank_of_isWord (f.isWord_name c (by simp [hname]))
      have hconcat : s ++ mark :: f.name = (s ++ mark :: front) ++ [c] := by simp [hname]
      rw [written, written, ← List.append_assoc, trimEnd_append_of_blank _ (List.all_eq_true.1 hb),
        List.append_nil, hconcat, trimEnd_concat hc]
    · rw [filled, filled, ← List.append_assoc,
        trimEnd_append_of_blank _ (List.all_eq_true.1 hspoken),
        trimEnd_append_of_not_blank s f.value_not_blank, List.append_nil]
  | false =>
    have hspoken : Text.blank f.spoken = false := f.respaced.blank_eq ▸ hb
    refine ⟨{ f with
        literal := Text.trimEnd f.literal, spoken := Text.trimEnd f.spoken,
        mark_notMem := fun h => f.mark_notMem (mem_of_mem_trimEnd h),
        head?_literal := fun c hc => f.head?_literal c (mem_head?_of_trimEnd hc),
        respaced := f.respaced.trimEnd }, ?_, fun s => ?_, fun s => ?_⟩
    · rw [key, key, ink_trimEnd]
    · rw [written, written, ← List.append_assoc, trimEnd_append_of_not_blank _ hb,
        List.append_assoc]
    · rw [filled, filled, ← List.append_assoc, trimEnd_append_of_not_blank _ hspoken,
        List.append_assoc]

/-- A filling with no blanks at the start of the step. -/
theorem exists_trimStart (f : Filling mark) :
    ∃ g : Filling mark, g.key = f.key ∧ g.written = f.written ∧
      ∀ s, Text.trimStart (f.filled ++ s) = g.filled ++ s := by
  have hvalue : Text.blank (Text.trimStart f.value) = false :=
    (blank_eq_of_ink_eq (ink_trimStart f.value)).trans f.value_not_blank
  refine ⟨{ f with value := Text.trimStart f.value, value_not_blank := hvalue }, ?_, rfl,
    fun s => ?_⟩
  · rw [key, key, trim_trimStart]
  · rw [filled, filled, List.append_assoc, trimStart_append_of_not_blank f.value_not_blank,
      List.append_assoc]

end Filling

open Filling

/-- A pattern with a literal at its start. -/
def patternOf {mark : Char} (first : Text) (fs : List (Filling mark)) : Text :=
  first ++ fs.flatMap written

/-- A step with a literal at its start. -/
def stepOf {mark : Char} (first : Text) (fs : List (Filling mark)) : Text :=
  first ++ fs.flatMap filled

theorem patternOf_concat {mark : Char} (first : Text) (fs : List (Filling mark))
    (f : Filling mark) : patternOf first (fs ++ [f]) = patternOf first fs ++ f.written := by
  rw [patternOf, patternOf, List.flatMap_append, List.flatMap_singleton, List.append_assoc]

theorem stepOf_concat {mark : Char} (first : Text) (fs : List (Filling mark)) (f : Filling mark) :
    stepOf first (fs ++ [f]) = stepOf first fs ++ f.filled := by
  rw [stepOf, stepOf, List.flatMap_append, List.flatMap_singleton, List.append_assoc]

/-- The cuts that a filled step has for the pieces of its pattern all give the values it was filled
by, and there is one. -/
theorem isCut_stepOf {mark : Char} (hblank : isBlank mark = false) (hword : isWord mark = false)
    {first first' : Text} (hfirst : mark ∉ first) (hrespaced : Respaced first first')
    (fs : List (Filling mark)) {c : Char} (hc : isBlank c = false) (hparted : Parted c fs) :
    (∃ cut, IsCut (ofText mark (patternOf first fs)) (stepOf first' fs) cut) ∧
      ∀ cut, IsCut (ofText mark (patternOf first fs)) (stepOf first' fs) cut →
        cut.values = fs.map entry := by
  have hpieces : ofText mark (patternOf first fs) = ofText mark first ++ fs.flatMap pieces := by
    rw [patternOf, ofText_append hfirst fun d hd => head?_written fs d hd ▸ hblank,
      ofText_written hblank hword]
  rw [hpieces]
  constructor
  · obtain ⟨cut₁, hcut₁⟩ := exists_isCut_of_respaced hrespaced hfirst
    have hrows : List.Forall₂ (fun (f : Filling mark) r => Respaced f.literal r.2) fs
        (fs.map fun f => (f.value, f.spoken)) := by
      rw [List.forall₂_map_right_iff, List.forall₂_same]
      exact fun f _ => f.respaced
    obtain ⟨cut₂, hcut₂, -⟩ := (exists_isCut_iff fs).2 ⟨_, rfl, hrows, rfl⟩
    refine ⟨cut₁ ++ cut₂, isCut_append_iff.2 ⟨first', _, cut₁, cut₂, ?_, rfl, hcut₁, hcut₂⟩⟩
    rw [stepOf, List.flatMap_map]
    rfl
  · intro cut hcut
    obtain ⟨s, rest, cut₁, cut₂, hs, rfl, hcut₁, hcut₂⟩ := isCut_append_iff.1 hcut
    obtain ⟨hfirst₁, hnone⟩ := respaced_of_isCut (reads_ofText mark first) hfirst hcut₁
    obtain ⟨rows, rfl, hrows, hvalues⟩ := (exists_isCut_iff fs).1 ⟨cut₂, hcut₂, rfl⟩
    have hink : ink s = ink first' := by rw [← hfirst₁.ink_eq, hrespaced.ink_eq]
    have hrest := trimStart_eq_of_append_eq hs.symm hink
    have hfree := not_mem_rows hc hrows hparted.value hrest
    rw [values_append, hnone, List.nil_append, hvalues,
      zipWith_eq_map_entry hc hrows hparted hfree hrest]

/-- Without the blanks at its ends, a step fills the pattern without the blanks at its own. -/
theorem exists_trimmed {mark : Char} (hblank : isBlank mark = false) {first first' : Text}
    (hfirst : mark ∉ first) (hrespaced : Respaced first first') (fs : List (Filling mark)) :
    ∃ (g g' : Text) (gs : List (Filling mark)), mark ∉ g ∧ Respaced g g' ∧
      gs.map key = fs.map key ∧ trim (patternOf first fs) = patternOf g gs ∧
      trim (stepOf first' fs) = stepOf g' gs := by
  have hfirst' : mark ∉ trimStart first := fun h => hfirst (mem_of_mem_trimStart h)
  cases fs with
  | nil =>
    refine ⟨trim first, trim first', [], fun h => hfirst' (mem_of_mem_trimEnd h),
      hrespaced.trimStart.trimEnd, rfl, ?_, ?_⟩
    · simp only [patternOf, List.flatMap_nil, List.append_nil]
    · simp only [stepOf, List.flatMap_nil, List.append_nil]
  | cons f fs =>
    obtain ⟨f₁, hkey₁, hwritten, hfilled⟩ : ∃ f₁ : Filling mark, f₁.key = f.key ∧
        f₁.written = f.written ∧
        ∀ s, trimStart (first' ++ (f.filled ++ s)) = trimStart first' ++ (f₁.filled ++ s) := by
      cases hb : Text.blank first' with
      | true =>
        have hall := List.all_eq_true.1 hb
        obtain ⟨f₁, hkey, hwritten, hfilled⟩ := exists_trimStart f
        refine ⟨f₁, hkey, hwritten, fun s => ?_⟩
        rw [trimStart_append_of_blank hall, trimStart_eq_nil_of_blank hall, hfilled,
          List.nil_append]
      | false => exact ⟨f, rfl, rfl, fun s => trimStart_append_of_not_blank hb _⟩
    have hpattern : trimStart (patternOf first (f :: fs)) =
        patternOf (trimStart first) (f₁ :: fs) := by
      rw [patternOf, patternOf, List.flatMap_cons, List.flatMap_cons, hwritten]
      exact trimStart_append_cons hblank _ _
    have hstep : trimStart (stepOf first' (f :: fs)) = stepOf (trimStart first') (f₁ :: fs) := by
      rw [stepOf, stepOf, List.flatMap_cons, List.flatMap_cons, hfilled]
    obtain ⟨init, l, hl⟩ := (List.eq_nil_or_concat (f₁ :: fs)).resolve_left (List.cons_ne_nil _ _)
    rw [List.concat_eq_append] at hl
    obtain ⟨l₁, hkey, hwrittenEnd, hfilledEnd⟩ := exists_trimEnd l
    refine ⟨trimStart first, trimStart first', init ++ [l₁], hfirst', hrespaced.trimStart, ?_, ?_, ?_⟩
    · rw [List.map_cons, ← hkey₁, ← List.map_cons, hl, List.map_append, List.map_append,
        List.map_singleton, List.map_singleton, hkey]
    · rw [trim, hpattern, hl, patternOf_concat, patternOf_concat, hwrittenEnd]
    · rw [trim, hstep, hl, stepOf_concat, stepOf_concat, hfilledEnd]

namespace Pattern

/-- A pattern is read as its placeholders, and gives the trimmed values that a step fills it by, where
some character is in all the literals between the placeholders and in no value. -/
theorem values?_stepOf {mark : Char} (hblank : isBlank mark = false) (hword : isWord mark = false)
    {first first' : Text} (hfirst : mark ∉ first) (hrespaced : Respaced first first')
    (fs : List (Filling mark)) {c : Char} (hc : isBlank c = false) (hparted : Parted c fs)
    (hsize : (Piece.ofText mark (trim (patternOf first fs))).countP Piece.isOpen ≤ maxOpenPieces) :
    ∃ p, Pattern.ofText? mark (patternOf first fs) = .ok p ∧ p.names = fs.map Filling.name ∧
      p.values? (stepOf first' fs) = some (fs.map fun f => trim f.value) := by
  obtain ⟨g, g', gs, hg, hgg', hkey, hpattern, hstep⟩ :=
    exists_trimmed hblank hfirst hrespaced fs
  have hgs : Parted c gs := by
    rw [parted_iff hc, hkey, ← parted_iff hc]
    exact hparted
  obtain ⟨⟨cut, hcut⟩, hall⟩ := isCut_stepOf hblank hword hg hgg' gs hc hgs
  rw [← hpattern, ← hstep] at hcut hall
  rw [map_entry_of_map_key hkey] at hall
  refine ⟨_, by rw [Pattern.ofText?, if_neg (Nat.not_lt.2 hsize)], ?_, ?_⟩
  · rw [Pattern.names, ← hcut.map_fst_values, hall cut hcut, List.map_map]
    rfl
  · refine values?_eq_some_of_isCut hcut fun other hother => ?_
    rw [hall other hother, List.map_map]
    rfl

/-- Three placeholders, two of them before the same literal, and values that hold parts of it. -/
def transfer : List (Filling '$') :=
  [{ name := "sum", literal := " (\\d+) [to] ", value := "5 \\d) [to] ", spoken := "\t(\\d+)\n[to]  "
     name_ne_nil := by decide, isWord_name := List.all_eq_true.1 (by decide +kernel)
     mark_notMem := by decide +kernel
     head?_literal := fun c hc => Option.some.inj hc ▸ (by decide +kernel)
     value_not_blank := by decide +kernel, respaced := by decide +kernel },
   { name := "who", literal := " (\\d+) [to] ", value := "Ann\n.* Bob", spoken := " (\\d+) [to]\n"
     name_ne_nil := by decide, isWord_name := List.all_eq_true.1 (by decide +kernel)
     mark_notMem := by decide +kernel
     head?_literal := fun c hc => Option.some.inj hc ▸ (by decide +kernel)
     value_not_blank := by decide +kernel, respaced := by decide +kernel },
   { name := "day_1", literal := "? ", value := " ^x?", spoken := "?\n\n"
     name_ne_nil := by decide, isWord_name := List.all_eq_true.1 (by decide +kernel)
     mark_notMem := by decide +kernel
     head?_literal := fun c hc => Option.some.inj hc ▸ (by decide +kernel)
     value_not_blank := by decide +kernel, respaced := by decide +kernel }]

theorem values?_stepOf_of_transfer :
    ∃ p, Pattern.ofText? '$' " pay | $sum (\\d+) [to] $who (\\d+) [to] $day_1? " = .ok p ∧
      p.names = [("sum" : Text), "who", "day_1"] ∧
      p.values? "\n\npay  | 5 \\d) [to] \t(\\d+)\n[to]  Ann\n.* Bob (\\d+) [to]\n ^x??\n\n" =
        some [("5 \\d) [to]" : Text), "Ann\n.* Bob", "^x?"] := by
  have hmark : '$' ∉ (" pay | " : Text) := by decide +kernel
  have hfirst : Respaced " pay | " "\n\npay  | " := by decide +kernel
  have hparted : Parted '+' transfer := ⟨by decide +kernel, by decide +kernel⟩
  exact values?_stepOf (by decide +kernel) (by decide +kernel) hmark hfirst transfer
    (by decide +kernel) hparted (by decide +kernel)

end Pattern

end PlainStory
