import PlainStory.Proofs.Pattern.Spacing
import PlainStory.Proofs.Step.Lookup
import PlainStory.Proofs.Story.Openers

/-!
# Starting words in lookups

Which of the starting words a step has makes no difference to what is found for it. Where the words can
be told apart, the one that a step is written with is the only one that it begins with, and taking it
away leaves what follows, blanks aside, even if that begins with a starting word again. The main
statement is that a step is found with any starting word as it is without one.
-/

namespace PlainStory

namespace Keywords

variable {k : Keywords} {v w s t : Text}

/-! ### Words that can be told apart -/

/-- Starting words that can be told apart: none is empty, has blanks at its ends, or is another one
with blanks and more text behind it. -/
structure Separable (k : Keywords) : Prop where
  ne_nil : ∀ w ∈ k.startingWords, w ≠ []
  trim : ∀ w ∈ k.startingWords, Text.trim w = w
  apart : ∀ v ∈ k.startingWords, ∀ w ∈ k.startingWords, ∀ run rest : Text, run ≠ [] →
    (∀ c ∈ run, Text.isBlank c = true) → rest ≠ [] → w ≠ v ++ run ++ rest

/-- Whether a text begins with a starting word: blanks aside it stands at the start, and behind it the
text ends or goes on with a blank. -/
def HasStartingWord (k : Keywords) (t : Text) : Prop :=
  ∃ w ∈ k.startingWords, ∃ rest, Text.trimStart t = w ++ rest ∧
    ∀ c ∈ rest.head?, Text.isBlank c = true

theorem atWordEnd_iff {rest : Text} :
    atWordEnd rest = true ↔ ∀ c ∈ rest.head?, Text.isBlank c = true := by
  cases rest <;> simp [atWordEnd]

theorem beginsWith_iff {step word : Text} :
    beginsWith step word = true ↔
      ∃ rest, Text.trimStart step = word ++ rest ∧ ∀ c ∈ rest.head?, Text.isBlank c = true := by
  rw [beginsWith]
  cases h : Text.after? word (Text.trimStart step) with
  | none =>
    refine iff_of_false Bool.false_ne_true ?_
    rintro ⟨rest, hrest, -⟩
    rw [Text.after?_eq_some_iff.2 hrest] at h
    cases h
  | some rest =>
    have hrest := Text.after?_eq_some_iff.1 h
    constructor
    · exact fun hend => ⟨rest, hrest, atWordEnd_iff.1 hend⟩
    · rintro ⟨rest', hrest', hend⟩
      obtain rfl := List.append_cancel_left (hrest.symm.trans hrest')
      exact atWordEnd_iff.2 hend

theorem startingWord?_eq_none_iff : k.startingWord? t = none ↔ ¬ k.HasStartingWord t := by
  simp only [startingWord?, List.find?_eq_none, HasStartingWord, beginsWith_iff, not_exists, not_and]

/-- A word without blanks at its ends does not go on with blanks alone. -/
theorem ne_nil_of_trim_append (h : Text.trim (v ++ s) = v ++ s) (hs : s ≠ []) :
    Text.blank s = false := by
  rw [← Bool.not_eq_true]
  intro hblank
  have hend := Text.trimEnd_of_trim h
  rw [Text.trimEnd_append_of_blank v (List.all_eq_true.1 hblank)] at hend
  have hlength := congrArg List.length hend
  rw [List.length_append] at hlength
  have hshort := Text.length_trimEnd_le v
  have hpos := List.length_pos_iff.2 hs
  omega

theorem separable_iff :
    k.Separable ↔ (∀ w ∈ k.startingWords, w ≠ [] ∧ Text.trim w = w) ∧
      ∀ v ∈ k.startingWords, ∀ w ∈ k.startingWords, beginsWith w v = true → v = w := by
  constructor
  · intro h
    refine ⟨fun w hw => ⟨h.ne_nil w hw, h.trim w hw⟩, fun v hv w hw hbegins => ?_⟩
    obtain ⟨rest, hrest, hblank⟩ := beginsWith_iff.1 hbegins
    rw [Text.trimStart_of_trim (h.trim w hw)] at hrest
    cases rest with
    | nil => rw [hrest, List.append_nil]
    | cons c cs =>
      have hc : Text.isBlank c = true := hblank c rfl
      have hcs : cs ≠ [] := by
        rintro rfl
        have hno := ne_nil_of_trim_append (hrest ▸ h.trim w hw) (List.cons_ne_nil c [])
        simp [Text.blank, hc] at hno
      exact absurd (by rw [hrest, List.append_assoc]; rfl)
        (h.apart v hv w hw [c] cs (List.cons_ne_nil c []) (List.forall_mem_singleton.2 hc) hcs)
  · rintro ⟨hwords, hunique⟩
    refine ⟨fun w hw => (hwords w hw).1, fun w hw => (hwords w hw).2, ?_⟩
    rintro v hv w hw run rest hne hrun hrest rfl
    have htrim := Text.trimStart_of_trim (hwords _ hw).2
    obtain ⟨c, cs, rfl⟩ := List.exists_cons_of_ne_nil hne
    have hbegins : beginsWith (v ++ c :: cs ++ rest) v = true := by
      refine beginsWith_iff.2 ⟨c :: cs ++ rest, by rw [htrim, List.append_assoc], ?_⟩
      simpa using hrun c List.mem_cons_self
    have hlength := congrArg List.length (hunique v hv _ hw hbegins)
    simp only [List.length_append, List.length_cons] at hlength
    omega

instance : Decidable k.Separable := decidable_of_iff _ separable_iff.symm

theorem Separable.eq_of_append (hk : k.Separable) (hv : v ∈ k.startingWords)
    (hw : w ∈ k.startingWords) (h : w = v ++ s) (hs : ∀ c ∈ s.head?, Text.isBlank c = true) :
    v = w :=
  (separable_iff.1 hk).2 v hv w hw
    (beginsWith_iff.2 ⟨s, by rw [Text.trimStart_of_trim (hk.trim w hw), h], hs⟩)

theorem Separable.trimStart_append (hk : k.Separable) (hw : w ∈ k.startingWords) (t : Text) :
    Text.trimStart (w ++ t) = w ++ t := by
  have htrim := Text.trimStart_of_trim (hk.trim w hw)
  have hprefix : w <+: Text.trimStart w := ⟨[], by rw [htrim, List.append_nil]⟩
  have h := Text.trimStart_append_of_prefix (hk.ne_nil w hw) hprefix t
  rw [h, htrim]

/-! ### Taking a starting word away -/

/-- The starting word of a step is the one that it is written with. -/
theorem Separable.startingWord?_append (hk : k.Separable) (hw : w ∈ k.startingWords)
    (ht : ∀ c ∈ t.head?, Text.isBlank c = true) : k.startingWord? (w ++ t) = some w := by
  have htrim := hk.trimStart_append hw t
  have hbegins : beginsWith (w ++ t) w = true := beginsWith_iff.2 ⟨t, htrim, ht⟩
  obtain ⟨v, hfound⟩ := Option.isSome_iff_exists.1 (List.find?_isSome.2 ⟨w, hw, hbegins⟩)
  have hv := List.mem_of_find?_eq_some hfound
  obtain ⟨rest, hrest, hblank⟩ := beginsWith_iff.1 (List.find?_some hfound)
  rw [htrim] at hrest
  -- one of two words at the start of a text begins with the other
  have hvw : v = w := by
    rcases List.append_eq_append_iff.1 hrest with ⟨x, hx, rfl⟩ | ⟨x, hx, rfl⟩
    · refine (hk.eq_of_append hw hv hx fun c hc => ht c ?_).symm
      rw [List.head?_append, Option.mem_def.1 hc]
      rfl
    · refine hk.eq_of_append hv hw hx fun c hc => hblank c ?_
      rw [List.head?_append, Option.mem_def.1 hc]
      rfl
  rw [startingWord?, hfound, hvw]

theorem withoutStartingWord_of_trimStart (h : Text.trimStart s = Text.trimStart t) :
    k.withoutStartingWord s = k.withoutStartingWord t := by
  rw [withoutStartingWord, h, withoutStartingWord]

/-- One starting word is taken away, whatever follows. -/
theorem Separable.withoutStartingWord_append (hk : k.Separable) (hw : w ∈ k.startingWords)
    (ht : ∀ c ∈ t.head?, Text.isBlank c = true) :
    k.withoutStartingWord (w ++ t) = Text.trimStart t := by
  rw [withoutStartingWord, hk.trimStart_append hw, hk.startingWord?_append hw ht]
  exact congrArg Text.trimStart List.drop_left

theorem withoutStartingWord_of_not_hasStartingWord (h : ¬ k.HasStartingWord t) :
    k.withoutStartingWord t = Text.trimStart t := by
  have hnone := startingWord?_eq_none_iff.2 h
  have htrim : k.startingWord? (Text.trimStart t) = k.startingWord? t := by
    rw [startingWord?, beginsWith_trimStart, startingWord?]
  rw [withoutStartingWord, htrim, hnone]

theorem Separable.hasStartingWord_append_of_blank (hk : k.Separable) {back : Text}
    (hback : ∀ c ∈ back, Text.isBlank c = true) :
    k.HasStartingWord (t ++ back) ↔ k.HasStartingWord t := by
  simp only [HasStartingWord, ← beginsWith_iff]
  refine exists_congr fun w => and_congr_right fun hw => ?_
  rw [beginsWith_append_of_blank hback (Text.trimEnd_of_trim (hk.trim w hw))]

end Keywords

/-! ### Looking up -/

theorem Pattern.values?_of_trim (p : Pattern) {s t : Text} (h : Text.trim s = Text.trim t) :
    p.values? s = p.values? t := by
  rw [values?, parts?, h, values?, parts?]

namespace Registry

variable {W : Type} {r : Registry W} {w run front back t : Text}

/-- The matches of a step that says what a text says are those of the text as it stands. -/
theorem matchesOf_eq_of_trim {step : Text}
    (h : Text.trim (r.keywords.withoutStartingWord step) = Text.trim t) :
    r.matchesOf step =
      r.candidates.filterMap fun c => (c.pattern.values? t).map fun values => ⟨c, values⟩ := by
  refine congrArg (r.candidates.filterMap ·) (funext fun c => ?_)
  rw [c.pattern.values?_of_trim h]

section

variable (hfront : ∀ c ∈ front, Text.isBlank c = true) (hback : ∀ c ∈ back, Text.isBlank c = true)
include hfront hback

/-- A text behind a starting word is matched as it stands. -/
theorem matchesOf_startingWord (hk : r.keywords.Separable) (hw : w ∈ r.keywords.startingWords)
    (hne : run ≠ []) (hrun : ∀ c ∈ run, Text.isBlank c = true) :
    r.matchesOf (front ++ w ++ run ++ t ++ back) =
      r.candidates.filterMap fun c => (c.pattern.values? t).map fun values => ⟨c, values⟩ := by
  have hstart : Text.trimStart (front ++ w ++ run ++ t ++ back) =
      Text.trimStart (w ++ (run ++ (t ++ back))) := by
    simp only [List.append_assoc]
    exact Text.trimStart_append_of_blank hfront _
  have hhead : ∀ c ∈ (run ++ (t ++ back)).head?, Text.isBlank c = true := by
    obtain ⟨c, cs, rfl⟩ := List.exists_cons_of_ne_nil hne
    simpa using hrun c List.mem_cons_self
  refine matchesOf_eq_of_trim ?_
  rw [Keywords.withoutStartingWord_of_trimStart hstart, hk.withoutStartingWord_append hw hhead,
    Text.trim_trimStart, ← List.append_assoc, Text.trim_append_append hrun hback]

/-- So is a text without a starting word. -/
theorem matchesOf_of_not_hasStartingWord (hk : r.keywords.Separable)
    (ht : ¬ r.keywords.HasStartingWord t) :
    r.matchesOf (front ++ t ++ back) =
      r.candidates.filterMap fun c => (c.pattern.values? t).map fun values => ⟨c, values⟩ := by
  have hstart : Text.trimStart (front ++ t ++ back) = Text.trimStart (t ++ back) := by
    rw [List.append_assoc, Text.trimStart_append_of_blank hfront]
  have hnone := mt (hk.hasStartingWord_append_of_blank hback).1 ht
  refine matchesOf_eq_of_trim ?_
  rw [Keywords.withoutStartingWord_of_trimStart hstart,
    Keywords.withoutStartingWord_of_not_hasStartingWord hnone, Text.trim_trimStart,
    Text.trim_append_of_blank t hback]

end

/-- A step with any starting word is found as it is without one, with the same candidate and the same
values, or not at all, and blanks in front of it and behind it make no difference. One starting word is
taken away, and a text that begins with one behind it keeps that. -/
theorem find?_startingWord (hk : r.keywords.Separable) (hw : w ∈ r.keywords.startingWords)
    (hne : run ≠ []) (hrun : ∀ c ∈ run, Text.isBlank c = true)
    (hfront : ∀ c ∈ front, Text.isBlank c = true) (hback : ∀ c ∈ back, Text.isBlank c = true) :
    (∀ t, ¬ r.keywords.HasStartingWord t →
        r.find? (front ++ w ++ run ++ t ++ back) = r.find? t ∧
          r.find? (front ++ t ++ back) = r.find? t ∧
          r.matchesOf (front ++ w ++ run ++ t ++ back) = r.matchesOf t) ∧
      (∀ t, r.matchesOf (front ++ w ++ run ++ t ++ back) =
        r.candidates.filterMap fun c => (c.pattern.values? t).map fun values => ⟨c, values⟩) ∧
      ∀ v ∈ r.keywords.startingWords, ∀ rest,
        r.keywords.withoutStartingWord (front ++ w ++ run ++ (v ++ rest)) = v ++ rest := by
  have hwith := fun t => matchesOf_startingWord (t := t) hfront hback hk hw hne hrun
  refine ⟨fun t ht => ?_, hwith, fun v hv rest => ?_⟩
  · have hnil : ∀ c ∈ ([] : Text), Text.isBlank c = true := List.forall_mem_nil _
    have halone := matchesOf_of_not_hasStartingWord hnil hnil hk ht
    rw [List.nil_append, List.append_nil] at halone
    have hspaced := matchesOf_of_not_hasStartingWord hfront hback hk ht
    rw [find?, find?, find?, hwith t, halone, hspaced]
    exact ⟨rfl, rfl, rfl⟩
  · have hstart : Text.trimStart (front ++ w ++ run ++ (v ++ rest)) =
        Text.trimStart (w ++ (run ++ (v ++ rest))) := by
      simp only [List.append_assoc]
      exact Text.trimStart_append_of_blank hfront _
    have hhead : ∀ c ∈ (run ++ (v ++ rest)).head?, Text.isBlank c = true := by
      obtain ⟨c, cs, rfl⟩ := List.exists_cons_of_ne_nil hne
      simpa using hrun c List.mem_cons_self
    rw [Keywords.withoutStartingWord_of_trimStart hstart, hk.withoutStartingWord_append hw hhead,
      Text.trimStart_append_of_blank hrun, hk.trimStart_append hv]

/-- A registry in whose language one starting word begins with another one, and one holds a space. -/
def accounts : Registry Unit where
  keywords := ⟨fun
    | .precondition => "Étant donné"
    | .action => "Et"
    | .outcome => "Etant"
    | .continuation => "Alors que"
    | w => w.english⟩
  candidates :=
    [⟨.precondition, ⟨"un $objet", '$', [.char 'u', .char 'n', .blank, .slot "objet"]⟩, 0, [], 0,
      fun w _ => (.ok, w)⟩]
  hooks := []

theorem find?_startingWord_of_accounts :
    accounts.keywords.Separable ∧ ¬ accounts.keywords.HasStartingWord "un compte" ∧
      (accounts.find? " Étant donné\t un compte\u3000").map Match.values = some [("compte" : Text)] ∧
      accounts.keywords.withoutStartingWord " Étant donné\t Etant un compte" =
        ("Etant un compte" : Text) := by
  have hk : accounts.keywords.Separable := by decide +kernel
  have ht : ¬ accounts.keywords.HasStartingWord "un compte" :=
    Keywords.startingWord?_eq_none_iff.1 (by decide +kernel)
  have hw : ("Étant donné" : Text) ∈ accounts.keywords.startingWords := by decide +kernel
  have hrun : ∀ c ∈ ("\t " : Text), Text.isBlank c = true := List.all_eq_true.1 (by decide)
  have hfront : ∀ c ∈ (" " : Text), Text.isBlank c = true := List.all_eq_true.1 (by decide)
  have hback : ∀ c ∈ ("\u3000" : Text), Text.isBlank c = true := List.all_eq_true.1 (by decide)
  obtain ⟨hfind, -, hkeep⟩ :=
    find?_startingWord (r := accounts) hk hw (List.cons_ne_nil _ _) hrun hfront hback
  refine ⟨hk, ht, ?_, hkeep "Etant" (by decide +kernel) " un compte"⟩
  have hfound : (accounts.find? "un compte").map Match.values = some [("compte" : Text)] := by
    decide +kernel
  rw [← hfound]
  exact congrArg (Option.map Match.values) (hfind "un compte" ht).1

end Registry

end PlainStory
