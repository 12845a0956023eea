import PlainStory.Pattern.Match
import PlainStory.Proofs.Text.Basic

/-!
# Cuts of steps

What it means for a step to be cut into parts for the pieces of a pattern, and which of all cuts a
pattern takes. `Piece.Reads` says how the text of a pattern is read as pieces. The main statement is
that a pattern matches a step if the trimmed step can be cut, and that the values are those of the cut
whose open parts, from left to right, have the greatest lengths.
-/

namespace PlainStory

namespace Piece

/-! ### Reading a pattern -/

/-- The pieces of a text, read from the left: runs of blanks and names are as long as they can be, and
a blank is never a mark. -/
inductive Reads (mark : Char) : Text → List Piece → Prop where
  | nil : Reads mark [] []
  | blank {run rest ps} (hne : run ≠ []) (hrun : ∀ c ∈ run, Text.isBlank c = true)
    (hrest : ∀ c ∈ rest.head?, Text.isBlank c = false) (h : Reads mark rest ps) :
    Reads mark (run ++ rest) (.blank :: ps)
  | slot {name rest ps} (hmark : Text.isBlank mark = false) (hne : name ≠ [])
    (hname : ∀ c ∈ name, Text.isWord c = true)
    (hrest : ∀ c ∈ rest.head?, Text.isWord c = false) (h : Reads mark rest ps) :
    Reads mark (mark :: name ++ rest) (.slot name :: ps)
  | char {c rest ps} (hblank : Text.isBlank c = false)
    (hslot : c = mark → ∀ d ∈ rest.head?, Text.isWord d = false) (h : Reads mark rest ps) :
    Reads mark (c :: rest) (.char c :: ps)

theorem ofText_nil (mark : Char) : ofText mark [] = [] := by rw [ofText.eq_def]

theorem ofText_cons (mark c : Char) (cs : Text) :
    ofText mark (c :: cs) =
      if Text.isBlank c then blank :: ofText mark (cs.dropWhile Text.isBlank)
      else if c = mark ∧ cs.head?.any Text.isWord then
        slot (cs.takeWhile Text.isWord) :: ofText mark (cs.dropWhile Text.isWord)
      else char c :: ofText mark cs := by
  rw [ofText.eq_def]

theorem reads_ofText (mark : Char) (s : Text) : Reads mark s (ofText mark s) := by
  fun_induction ofText mark s with
  | case1 => exact .nil
  | case2 c cs hc ih =>
    have h : c :: cs = (c :: cs.takeWhile Text.isBlank) ++ cs.dropWhile Text.isBlank := by
      rw [List.cons_append, List.takeWhile_append_dropWhile]
    rw [h]
    refine .blank (by simp) ?_ (Text.head?_dropWhile_eq_false _ _) ih
    intro d hd
    rcases List.mem_cons.1 hd with rfl | hd
    · exact hc
    · exact Text.of_mem_takeWhile d hd
  | case3 c cs hc hslot ih =>
    obtain ⟨rfl, hword⟩ := hslot
    have h : c :: cs = c :: cs.takeWhile Text.isWord ++ cs.dropWhile Text.isWord := by
      rw [List.cons_append, List.takeWhile_append_dropWhile]
    have hne : cs.takeWhile Text.isWord ≠ [] := by
      cases cs with
      | nil => exact absurd hword (by simp)
      | cons d ds => simp_all
    rw [h]
    exact .slot (by simpa using hc) hne Text.of_mem_takeWhile (Text.head?_dropWhile_eq_false _ _) ih
  | case4 c cs hc hslot ih =>
    refine .char (by simpa using hc) ?_ ih
    rintro rfl d hd
    simp_all

theorem eq_ofText_of_reads {mark : Char} {s : Text} {ps : List Piece} (h : Reads mark s ps) :
    ps = ofText mark s := by
  induction h with
  | nil => rw [ofText_nil]
  | @blank run rest ps hne hrun hrest _ ih =>
    cases run with
    | nil => exact absurd rfl hne
    | cons c cs =>
      have hcs : ∀ d ∈ cs, Text.isBlank d = true := fun d hd => hrun d (List.mem_cons_of_mem _ hd)
      rw [List.cons_append, ofText_cons, if_pos (hrun c List.mem_cons_self),
        Text.dropWhile_append_eq hcs hrest, ih]
  | @slot name rest ps hmark hne hname hrest _ ih =>
    have hw : (name ++ rest).head?.any Text.isWord = true := by
      cases name with
      | nil => exact absurd rfl hne
      | cons c cs => exact hname c List.mem_cons_self
    rw [List.cons_append, ofText_cons, if_neg (by simp [hmark]), if_pos ⟨rfl, hw⟩,
      Text.takeWhile_append_eq hname hrest, Text.dropWhile_append_eq hname hrest, ih]
  | @char c rest ps hblank hslot _ ih =>
    have hs : ¬ (c = mark ∧ rest.head?.any Text.isWord = true) := by
      rintro ⟨hc, hw⟩
      obtain ⟨d, hd, hd'⟩ := (Option.any_eq_true _ _).1 hw
      rw [hslot hc d hd] at hd'
      exact absurd hd' nofun
    rw [ofText_cons, if_neg (by simp [hblank]), if_neg hs, ih]

/-- There is one way to read a text as pieces. -/
theorem reads_iff {mark : Char} {s : Text} {ps : List Piece} :
    Reads mark s ps ↔ ps = ofText mark s :=
  ⟨eq_ofText_of_reads, fun h => h ▸ reads_ofText mark s⟩

/-! ### Cuts -/

/-- What a piece can take: its own character, some blanks, or anything. -/
inductive Takes : Piece → Text → Prop where
  | char (c : Char) : Takes (.char c) [c]
  | blank {part} (hne : part ≠ []) (h : ∀ c ∈ part, Text.isBlank c = true) : Takes .blank part
  | slot (name part : Text) : Takes (.slot name) part

/-- A cut gives each piece the part it takes. -/
abbrev Cut := List (Piece × Text)

/-- A cut of a text for the given pieces. -/
structure IsCut (ps : List Piece) (s : Text) (cut : Cut) : Prop where
  pieces : cut.map Prod.fst = ps
  takes : ∀ x ∈ cut, Takes x.1 x.2
  parts : (cut.map Prod.snd).flatten = s

/-- The lengths of the parts whose length the pieces leave open. -/
def Cut.openLengths (cut : Cut) : List Nat :=
  (cut.filter fun x => x.1.isOpen).map fun x => x.2.length

/-- The placeholders with the trimmed parts that they take. -/
def Cut.values (cut : Cut) : List (Text × Text) :=
  cut.filterMap fun x => x.1.name?.map fun name => (name, Text.trim x.2)

/-- The parts that fall to placeholders, as they are. -/
def Cut.groups (cut : Cut) : List Text := cut.filterMap fun x => x.1.name?.map fun _ => x.2

theorem Cut.map_snd_values (cut : Cut) : cut.values.map Prod.snd = cut.groups.map Text.trim := by
  rw [values, groups, List.map_filterMap, List.map_filterMap]
  refine congrArg (List.filterMap · cut) (funext fun x => ?_)
  simp [Function.comp_def]

theorem IsCut.map_fst_values {ps : List Piece} {s : Text} {cut : Cut}
    (h : IsCut ps s cut) : cut.values.map Prod.fst = ps.filterMap name? := by
  rw [← h.pieces, Cut.values, List.map_filterMap, List.filterMap_map]
  refine congrArg (List.filterMap · cut) (funext fun x => ?_)
  simp [Function.comp_def]

theorem isCut_nil_iff {s : Text} {cut : Cut} : IsCut [] s cut ↔ s = [] ∧ cut = [] := by
  constructor
  · rintro ⟨hp, -, hs⟩
    obtain rfl := List.map_eq_nil_iff.1 hp
    exact ⟨hs.symm, rfl⟩
  · rintro ⟨rfl, rfl⟩
    exact ⟨rfl, nofun, rfl⟩

theorem isCut_cons_iff {p : Piece} {ps : List Piece} {s : Text} {cut : Cut} :
    IsCut (p :: ps) s cut ↔
      ∃ part rest tail, s = part ++ rest ∧ cut = (p, part) :: tail ∧ Takes p part ∧
        IsCut ps rest tail := by
  constructor
  · rintro ⟨hp, ht, hs⟩
    obtain ⟨⟨q, part⟩, tail, rfl, rfl, hps⟩ := List.map_eq_cons_iff.1 hp
    exact ⟨part, _, tail, hs.symm, rfl, ht _ List.mem_cons_self,
      hps, fun x hx => ht x (List.mem_cons_of_mem _ hx), rfl⟩
  · rintro ⟨part, rest, tail, rfl, rfl, ht, ⟨hps, hts, hs⟩⟩
    refine ⟨by simp [hps], fun x hx => ?_, by simp [hs]⟩
    rcases List.mem_cons.1 hx with rfl | hx
    · exact ht
    · exact hts x hx

/-! ### The greedy step -/

theorem longest_eq_none {p : Char → Bool} {next : Text → Option (List Text)} {s : Text}
    (h : longest p next s = none) {part rest : Text} (hs : s = part ++ rest)
    (hp : ∀ c ∈ part, p c = true) : next rest = none := by
  induction s generalizing part with
  | nil =>
    obtain ⟨rfl, rfl⟩ := List.append_eq_nil_iff.1 hs.symm
    exact Option.map_eq_none_iff.1 h
  | cons c cs ih =>
    rw [longest] at h
    split at h
    · cases h
    · next hm =>
      cases part with
      | nil =>
        rw [← (show c :: cs = rest from hs)]
        exact Option.map_eq_none_iff.1 h
      | cons d part =>
        obtain ⟨rfl, rfl⟩ := List.cons_eq_cons.1 hs
        rw [if_pos (hp c List.mem_cons_self)] at hm
        exact ih hm rfl fun x hx => hp x (List.mem_cons_of_mem _ hx)

/-- `longest` takes a part in `p` behind which `next` succeeds, and no longer one is such a part. -/
theorem longest_eq_some {p : Char → Bool} {next : Text → Option (List Text)} {s : Text}
    {parts : List Text} (h : longest p next s = some parts) :
    ∃ part rest tail, s = part ++ rest ∧ (∀ c ∈ part, p c = true) ∧ next rest = some tail ∧
      parts = part :: tail ∧
      ∀ part' rest', s = part' ++ rest' → (∀ c ∈ part', p c = true) → (next rest').isSome →
        part'.length ≤ part.length := by
  induction s generalizing parts with
  | nil =>
    obtain ⟨tail, ht, rfl⟩ := Option.map_eq_some_iff.1 h
    refine ⟨[], [], tail, rfl, List.forall_mem_nil _, ht, rfl, fun part' rest' hs _ _ => ?_⟩
    exact Nat.le_of_eq (congrArg List.length (List.append_eq_nil_iff.1 hs.symm).1)
  | cons c cs ih =>
    rw [longest] at h
    split at h
    · next more hm =>
      obtain ⟨hc, hm⟩ : p c = true ∧ longest p next cs = some more := by
        split at hm
        · next hc => exact ⟨hc, hm⟩
        · cases hm
      obtain ⟨part, rest, tail, rfl, hp, hn, rfl, hmax⟩ := ih hm
      obtain rfl := Option.some.inj h
      refine ⟨c :: part, rest, tail, rfl, ?_, hn, rfl, fun part' rest' hs hp' hn' => ?_⟩
      · intro x hx
        rcases List.mem_cons.1 hx with rfl | hx
        · exact hc
        · exact hp x hx
      · cases part' with
        | nil => exact Nat.zero_le _
        | cons d part' =>
          obtain ⟨-, hs⟩ := List.cons_eq_cons.1 hs
          exact Nat.succ_le_succ
            (hmax part' rest' hs (fun x hx => hp' x (List.mem_cons_of_mem _ hx)) hn')
    · next hm =>
      obtain ⟨tail, ht, rfl⟩ := Option.map_eq_some_iff.1 h
      refine ⟨[], c :: cs, tail, rfl, List.forall_mem_nil _, ht, rfl, fun part' rest' hs hp' hn' => ?_⟩
      cases part' with
      | nil => exact Nat.le_refl _
      | cons d part' =>
        obtain ⟨rfl, htl⟩ := List.cons_eq_cons.1 hs
        rw [if_pos (hp' c List.mem_cons_self)] at hm
        have hnone := longest_eq_none hm htl fun x hx => hp' x (List.mem_cons_of_mem _ hx)
        rw [hnone] at hn'
        cases hn'

theorem step_slot (next : Text → Option (List Text)) (name s : Text) :
    step next (slot name) s = longest (fun _ => true) next s := by cases s <;> rfl

theorem step_eq_none {next : Text → Option (List Text)} {q : Piece} {s : Text}
    (h : step next q s = none) {part rest : Text} (hs : s = part ++ rest) (ht : Takes q part) :
    next rest = none := by
  subst hs
  cases ht with
  | char c => simpa [step] using h
  | slot name =>
    rw [step_slot] at h
    exact longest_eq_none h rfl fun _ _ => rfl
  | blank hne hb =>
    cases part with
    | nil => exact absurd rfl hne
    | cons c cs =>
      rw [List.cons_append, step, if_pos (hb c List.mem_cons_self)] at h
      exact longest_eq_none (Option.map_eq_none_iff.1 h) rfl
        fun x hx => hb x (List.mem_cons_of_mem _ hx)

/-- A step takes a part for its piece behind which `next` succeeds, and no longer one is such a
part. -/
theorem step_eq_some {next : Text → Option (List Text)} {q : Piece} {s : Text}
    {parts : List Text} (h : step next q s = some parts) :
    ∃ part rest tail, s = part ++ rest ∧ Takes q part ∧ next rest = some tail ∧
      parts = part :: tail ∧
      ∀ part' rest', s = part' ++ rest' → Takes q part' → (next rest').isSome →
        part'.length ≤ part.length := by
  cases q with
  | char c =>
    cases s with
    | nil => cases h
    | cons d cs =>
      rw [step] at h
      split at h
      · next hd =>
        subst hd
        obtain ⟨tail, ht, rfl⟩ := Option.map_eq_some_iff.1 h
        refine ⟨[d], cs, tail, rfl, .char d, ht, rfl, fun part' rest' _ ht' _ => ?_⟩
        cases ht'
        exact Nat.le_refl _
      · cases h
  | blank =>
    cases s with
    | nil => cases h
    | cons c cs =>
      rw [step] at h
      split at h
      · next hc =>
        obtain ⟨more, hm, rfl⟩ := Option.map_eq_some_iff.1 h
        obtain ⟨part, rest, tail, rfl, hp, hn, rfl, hmax⟩ := longest_eq_some hm
        have hcp : ∀ x ∈ c :: part, Text.isBlank x = true := List.forall_mem_cons.2 ⟨hc, hp⟩
        refine ⟨c :: part, rest, tail, rfl, .blank (List.cons_ne_nil c part) hcp, hn, rfl, ?_⟩
        intro part' rest' hs ht' hn'
        cases ht' with
        | blank hne hb =>
          cases part' with
          | nil => exact absurd rfl hne
          | cons d part' =>
            obtain ⟨-, hs⟩ := List.cons_eq_cons.1 hs
            exact Nat.succ_le_succ (hmax part' rest' hs (List.forall_mem_cons.1 hb).2 hn')
      · cases h
  | slot name =>
    rw [step_slot] at h
    obtain ⟨part, rest, tail, hs, -, hn, hparts, hmax⟩ := longest_eq_some h
    exact ⟨part, rest, tail, hs, .slot name part, hn, hparts,
      fun part' rest' hs' _ hn' => hmax part' rest' hs' (fun _ _ => rfl) hn'⟩

/-! ### The greedy cut -/

/-- What `fit` gives is a cut, when paired with the pieces. -/
theorem isCut_zip_of_fit {ps : List Piece} {s : Text} {parts : List Text}
    (h : fit ps s = some parts) : IsCut ps s (ps.zip parts) := by
  induction ps generalizing s parts with
  | nil =>
    cases s with
    | nil => exact isCut_nil_iff.2 ⟨rfl, rfl⟩
    | cons c cs => exact absurd h nofun
  | cons p ps ih =>
    have hstep : step (fit ps) p s = some parts := by cases s <;> exact h
    obtain ⟨part, rest, tail, hs, ht, hn, rfl, -⟩ := step_eq_some hstep
    exact isCut_cons_iff.2 ⟨part, rest, _, hs, rfl, ht, ih hn⟩

/-- Where `fit` gives nothing there is no cut. -/
theorem not_isCut_of_fit {ps : List Piece} {s : Text} (h : fit ps s = none) (cut : Cut) :
    ¬ IsCut ps s cut := by
  induction ps generalizing s cut with
  | nil =>
    rintro hcut
    obtain ⟨rfl, -⟩ := isCut_nil_iff.1 hcut
    exact absurd h nofun
  | cons p ps ih =>
    intro hcut
    have hstep : step (fit ps) p s = none := by cases s <;> exact h
    obtain ⟨part, rest, tail, hs, rfl, ht, htail⟩ := isCut_cons_iff.1 hcut
    exact ih (step_eq_none hstep hs ht) tail htail

theorem openLengths_cons (p : Piece) (part : Text) (cut : Cut) :
    Cut.openLengths ((p, part) :: cut) =
      if p.isOpen then part.length :: cut.openLengths else cut.openLengths := by
  cases hp : p.isOpen <;> simp [Cut.openLengths, hp]

/-- Every other cut has lesser lengths than the greedy one: the first open part in which they differ
is shorter. -/
theorem eq_or_openLengths_lt {ps : List Piece} {s : Text} {parts : List Text}
    (h : fit ps s = some parts) {cut : Cut} (hcut : IsCut ps s cut) :
    cut = ps.zip parts ∨ cut.openLengths < Cut.openLengths (ps.zip parts) := by
  induction ps generalizing s parts cut with
  | nil => exact .inl (isCut_nil_iff.1 hcut).2
  | cons p ps ih =>
    have hstep : step (fit ps) p s = some parts := by cases s <;> exact h
    obtain ⟨part, rest, tail, hs, ht, hn, rfl, hmax⟩ := step_eq_some hstep
    obtain ⟨part', rest', tail', hs', rfl, ht', htail'⟩ := isCut_cons_iff.1 hcut
    have hsome : (fit ps rest').isSome := by
      rw [Option.isSome_iff_ne_none]
      exact fun hnone => not_isCut_of_fit hnone tail' htail'
    have hle := hmax part' rest' hs' ht' hsome
    rw [List.zip_cons_cons, openLengths_cons, openLengths_cons]
    -- Parts of one length are the same part, and the rest decides.
    have hsame : part'.length = part.length →
        (p, part') :: tail' = (p, part) :: ps.zip tail ∨
          part' = part ∧ Cut.openLengths tail' < Cut.openLengths (ps.zip tail) := by
      intro hlen
      obtain ⟨rfl, rfl⟩ := List.append_inj (hs'.symm.trans hs) hlen
      rcases ih hn htail' with rfl | hlt
      · exact .inl rfl
      · exact .inr ⟨rfl, hlt⟩
    cases hp : p.isOpen with
    | true =>
      rcases Nat.lt_or_eq_of_le hle with hlt | hlen
      · exact .inr (List.cons_lt_cons_iff.2 (.inl hlt))
      · rcases hsame hlen with heq | ⟨hpart, hlt⟩
        · exact .inl heq
        · exact .inr (List.cons_lt_cons_iff.2 (.inr ⟨hpart ▸ rfl, hlt⟩))
    | false =>
      have hlen : part'.length = part.length := by
        cases ht with
        | char c =>
          cases ht'
          rfl
        | blank _ _ => exact absurd hp nofun
        | slot _ _ => exact absurd hp nofun
      rcases hsame hlen with heq | ⟨-, hlt⟩
      · exact .inl heq
      · exact .inr hlt

end Piece

namespace Pattern

open Piece

theorem pieces_of_ofText? {mark : Char} {text : Text} {p : Pattern}
    (h : Pattern.ofText? mark text = .ok p) : p.pieces = Piece.ofText mark (Text.trim text) := by
  simp only [Pattern.ofText?] at h
  split at h
  · exact absurd h nofun
  · rw [← Except.ok.inj h]

theorem isMatch_eq_isSome_values? (p : Pattern) (step : Text) :
    p.isMatch step = (p.values? step).isSome := by
  rw [Pattern.isMatch, Pattern.values?, Option.isSome_map]

theorem isSome_values? (p : Pattern) (step : Text) :
    (p.values? step).isSome ↔ ∃ cut, IsCut p.pieces (Text.trim step) cut := by
  rw [← isMatch_eq_isSome_values?, Pattern.isMatch, Pattern.parts?_eq_fit]
  cases h : fit p.pieces (Text.trim step) with
  | none => simpa using not_isCut_of_fit h
  | some parts => simpa using ⟨_, isCut_zip_of_fit h⟩

theorem map_snd_values_zip (pieces : List Piece) (parts : List Text) :
    (Cut.values (pieces.zip parts)).map Prod.snd = (slotParts pieces parts).map Text.trim :=
  Cut.map_snd_values (pieces.zip parts)

/-- The values are those of all cuts where they do not differ. -/
theorem values?_eq_some_of_isCut {p : Pattern} {step : Text} {values : List Text} {cut : Cut}
    (hcut : IsCut p.pieces (Text.trim step) cut)
    (hall : ∀ other : Cut, IsCut p.pieces (Text.trim step) other →
      other.values.map Prod.snd = values) : p.values? step = some values := by
  rw [Pattern.values?, Pattern.parts?_eq_fit]
  cases h : fit p.pieces (Text.trim step) with
  | none => exact absurd hcut (not_isCut_of_fit h cut)
  | some parts =>
    have hparts := hall _ (isCut_zip_of_fit h)
    rw [map_snd_values_zip] at hparts
    exact congrArg some hparts

/-- A pattern matches a step if the trimmed step can be cut into parts for its pieces, and gives the
trimmed parts of the placeholders, one for each name, of the cut with the greatest lengths. -/
theorem values?_greatest {mark : Char} {text : Text} {p : Pattern}
    (h : Pattern.ofText? mark text = .ok p) (step : Text) :
    (∀ ps, Reads mark (Text.trim text) ps ↔ ps = p.pieces) ∧
      ((p.values? step).isSome ↔ ∃ cut, IsCut p.pieces (Text.trim step) cut) ∧
      (∀ values, p.values? step = some values →
        ∃ cut : Cut, IsCut p.pieces (Text.trim step) cut ∧
          (∀ other, IsCut p.pieces (Text.trim step) other →
            other = cut ∨ other.openLengths < cut.openLengths) ∧
          cut.values.map Prod.fst = p.names ∧ cut.values.map Prod.snd = values) ∧
      (p.isMatch step = true ↔ (p.values? step).isSome) := by
  refine ⟨fun ps => ?_, isSome_values? p step, fun values hv => ?_, ?_⟩
  · rw [pieces_of_ofText? h]
    exact reads_iff
  · obtain ⟨parts, hparts, rfl⟩ := Option.map_eq_some_iff.1 hv
    rw [parts?_eq_fit] at hparts
    have hcut := isCut_zip_of_fit hparts
    exact ⟨_, hcut, fun other hother => eq_or_openLengths_lt hparts hother,
      hcut.map_fst_values, map_snd_values_zip p.pieces parts⟩
  · rw [isMatch_eq_isSome_values?]

theorem ofText_two_slots :
    Piece.ofText '$' (Text.trim "$a to $b") =
      [.slot "a", .blank, .char 't', .char 'o', .blank, .slot "b"] := by
  simp +decide [ofText_cons, ofText_nil, Text.trim, Text.trimStart, Text.trimEnd]

theorem values?_greatest_of_two_slots :
    ∃ p, Pattern.ofText? '$' "$a to $b" = .ok p ∧ p.names = [("a" : Text), "b"] ∧
      ∃ cut : Cut, IsCut p.pieces (Text.trim " x to y  to z ") cut ∧
        (∀ other, IsCut p.pieces (Text.trim " x to y  to z ") other →
          other = cut ∨ other.openLengths < cut.openLengths) ∧
        cut.values.map Prod.snd = [("x to y" : Text), "z"] := by
  have hp : Pattern.ofText? '$' "$a to $b" =
      .ok ⟨"$a to $b", '$', [.slot "a", .blank, .char 't', .char 'o', .blank, .slot "b"]⟩ := by
    rw [Pattern.ofText?, ofText_two_slots]
    rfl
  have hvalues := (values?_greatest hp " x to y  to z ").2.2.1 [("x to y" : Text), "z"]
    (by decide +kernel)
  obtain ⟨cut, hcut, hmax, -, hparts⟩ := hvalues
  exact ⟨_, hp, by decide +kernel, cut, hcut, hmax, hparts⟩

end Pattern

end PlainStory
