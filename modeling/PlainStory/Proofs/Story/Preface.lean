import PlainStory.Proofs.Story.Breaks

/-!
# The free text in front of a story

What becomes of the lines in front of the first one that begins with the keyword of a narrative or of a
scenario. They are the description as long as none of them opens anything. The first one that opens a
step, given stories or examples ends the description: the narrative behind it is no longer read, and
what is in front of the first scenario is in no part of the story.
-/

namespace PlainStory

namespace Keywords

variable {k : Keywords} {line : Text}

/-- Whether a line begins with the keyword of a narrative or of a scenario, blanks aside. -/
def opensStory (k : Keywords) (line : Text) : Bool :=
  [Keyword.narrative, .scenario].any fun w => Text.startsWith (k.token w) (Text.trimStart line)

theorem opensStory_iff :
    k.opensStory line = true ↔
      k.opener? line = some .scenario ∨ k.opener? line = some .narrative := by
  simp only [opensStory, opener?, List.any_cons, List.any_nil, Bool.or_false]
  grind

theorem opener?_ne_none_of_opensStory (h : k.opensStory line = true) : k.opener? line ≠ none := by
  rcases opensStory_iff.1 h with ho | ho <;> rw [ho] <;> exact Option.some_ne_none _

theorem opener?_ne_of_not_opensStory (h : k.opensStory line = false) :
    k.opener? line ≠ some .scenario ∧ k.opener? line ≠ some .narrative := by
  rw [← Bool.not_eq_true, opensStory_iff, not_or] at h
  exact h

end Keywords

variable {k : Keywords} {text line : Text} {front rest : List Text}

/-- A story keeps the lines in front of the first one that opens a narrative or a scenario when they
are its description and a narrative that the line opens is read from the lines that belong to it. -/
structure Story.KeepsPreface (k : Keywords) (front : List Text) (line : Text) (rest : List Text)
    (s : Story) : Prop where
  description : s.description = Text.trim (Text.joinLines front)
  narrative : k.opener? line = some .narrative → s.narrative = Narrative.ofText k
    (k.withoutKeyword .narrative (Text.joinLines (line :: (Narrative.partLines k rest).1)))

namespace Story

theorem keepsPreface_of_opener?_eq_none (hlines : Text.lines text = front ++ line :: rest)
    (hfront : ∀ l ∈ front, k.opener? l = none) (hline : k.opensStory line = true)
    (path? : Option Text) : (ofText k text path?).KeepsPreface k front line rest := by
  have hrest : ∀ l ∈ (line :: rest).head?, k.opener? l ≠ none := by
    simpa using Keywords.opener?_ne_none_of_opensStory hline
  rw [ofText_eq_ofLines, hlines, ofLines_append hfront hrest]
  exact ⟨rfl, fun hnarrative => by rw [Narrative.ofLines_of_opens hnarrative]⟩

/-- The story of a text in which free text opens a part of a scenario. -/
theorem ofText_of_opener? (hk : ∀ w, k.token w ≠ []) {plain odd : List Text} {l : Text}
    (hlines : Text.lines text = plain ++ l :: odd ++ line :: rest)
    (hodd : ∀ m ∈ l :: odd, k.opensStory m = false) (hplain : ∀ m ∈ plain, k.opener? m = none)
    (hl : k.opener? l ≠ none) (path? : Option Text) :
    ofText k text path? =
      { path?
        description := Text.trim (Text.joinLines plain)
        narrative := .empty
        scenarios :=
          if (line :: rest).any (k.opens .scenario) then Scenario.listOfLines k (line :: rest)
          else [Scenario.ofLines k [] (l :: odd ++ line :: rest)] } := by
  have hnarrative := (Keywords.opener?_ne_of_not_opensStory (hodd l List.mem_cons_self)).2
  have hscenario : ∀ m ∈ l :: odd, k.opens .scenario m = false := fun m hm =>
    decide_eq_false (Keywords.opener?_ne_of_not_opensStory (hodd m hm)).1
  have hrest : ∀ m ∈ (l :: odd ++ line :: rest).head?, k.opener? m ≠ none := by simpa using hl
  rw [ofText_eq_ofLines, hlines, List.append_assoc, ofLines_append hplain hrest, List.cons_append,
    Narrative.ofLines_of_not_opens hnarrative, ← List.cons_append]
  congr 1
  split
  · next hany => exact Scenario.listOfLines_append_of_opens hscenario (List.any_eq_true.1 hany)
  · next hany =>
    have hnone : Scenario.ofBlocks k (l :: odd ++ line :: rest) = [] := by
      refine Scenario.ofBlocks_eq_nil_iff.2 (List.forall_mem_append.2 ⟨hscenario, ?_⟩)
      simpa using hany
    obtain ⟨o, ho⟩ := Option.ne_none_iff_exists'.1 hl
    have hblank : (l :: odd ++ line :: rest).all Text.blank = false := by
      rw [List.cons_append, List.all_cons, Keywords.not_blank_of_opener? hk ho, Bool.false_and]
    rw [Scenario.listOfLines_eq, hnone, if_pos rfl, hblank]
    rfl

/-- A line that opens something has ink, so it is missing where it is left out. -/
theorem trim_joinLines_ne (hk : ∀ w, k.token w ≠ []) {l : Text} (hl : k.opener? l ≠ none)
    (plain odd : List Text) :
    Text.trim (Text.joinLines plain) ≠ Text.trim (Text.joinLines (plain ++ l :: odd)) := by
  intro h
  obtain ⟨o, ho⟩ := Option.ne_none_iff_exists'.1 hl
  have hink := congrArg Text.ink h
  rw [Text.ink_trim, Text.ink_trim, Text.ink_joinLines, Text.ink_joinLines, List.flatMap_append,
    List.flatMap_cons, List.self_eq_append_right, List.append_eq_nil_iff] at hink
  have hblank : Text.blank l = true := List.all_eq_true.2 (Text.ink_eq_nil_iff.1 hink.1)
  rw [Keywords.not_blank_of_opener? hk ho] at hblank
  exact absurd hblank nofun

/-- The lines in front of the first one that opens a narrative or a scenario are kept exactly where none
of them opens anything. Where one does, the first such line ends the description and there is no
narrative, and it is in the story only if no scenario is opened behind it. -/
theorem ofText_preface (hk : ∀ w, k.token w ≠ []) (hlines : Text.lines text = front ++ line :: rest)
    (hfront : ∀ l ∈ front, k.opensStory l = false) (hline : k.opensStory line = true)
    (path? : Option Text) :
    ((ofText k text path?).KeepsPreface k front line rest ↔ ∀ l ∈ front, k.opener? l = none) ∧
      ∀ plain l odd, front = plain ++ l :: odd → (∀ m ∈ plain, k.opener? m = none) →
        k.opener? l ≠ none →
          ofText k text path? =
            { path?
              description := Text.trim (Text.joinLines plain)
              narrative := .empty
              scenarios :=
                if (line :: rest).any (k.opens .scenario) then Scenario.listOfLines k (line :: rest)
                else [Scenario.ofLines k [] (l :: odd ++ line :: rest)] } := by
  refine ⟨⟨fun hkeeps => ?_, fun hnone => ?_⟩, ?_⟩
  · obtain ⟨plain, back, rfl, hplain, hback⟩ :=
      Text.exists_run (fun l => (k.opener? l).isNone) front
    have hplain : ∀ m ∈ plain, k.opener? m = none := fun m hm =>
      Option.isNone_iff_eq_none.1 (hplain m hm)
    cases back with
    | nil => rwa [List.append_nil]
    | cons l odd =>
      have hl : k.opener? l ≠ none :=
        Option.isSome_iff_ne_none.1 (Option.isNone_eq_false_iff.1 (hback l rfl))
      have hodd := (List.forall_mem_append.1 hfront).2
      have hdescription := hkeeps.description
      rw [ofText_of_opener? hk hlines hodd hplain hl] at hdescription
      exact absurd hdescription (trim_joinLines_ne hk hl plain odd)
  · exact keepsPreface_of_opener?_eq_none hlines hnone hline path?
  · rintro plain l odd rfl hplain hl
    have hodd := (List.forall_mem_append.1 hfront).2
    exact ofText_of_opener? hk hlines hodd hplain hl path?

/-- Words that a starting word is only the beginning of open nothing. -/
theorem ofText_preface_of_ordinary_words :
    let text : Text := Text.joinLines
      (["Andy says:", "  Givenly put, it moves.", "", " Narrative: In order to pay",
        "As a guest I want to have ten", "Scenario: paying", "Given ten"].map String.toList)
    let front : List Text := ["Andy says:", "  Givenly put, it moves.", ""].map String.toList
    let line : Text := " Narrative: In order to pay"
    let rest : List Text :=
      ["As a guest I want to have ten", "Scenario: paying", "Given ten"].map String.toList
    Text.lines text = front ++ line :: rest ∧
      (∀ l ∈ front, Keywords.english.opensStory l = false) ∧
      Keywords.english.opensStory line = true ∧
      (ofText .english text).description = ("Andy says:\n  Givenly put, it moves." : Text) ∧
      (ofText .english text).narrative = .withPurpose "pay" "guest" "have ten" := by
  intro text front line rest
  have hlines : Text.lines text = front ++ line :: rest := by decide +kernel
  have hfront : ∀ l ∈ front, Keywords.english.opensStory l = false := by decide +kernel
  have hline : Keywords.english.opensStory line = true := by decide +kernel
  have hpreface := ofText_preface Keywords.tidy_english.ne_nil hlines hfront hline none
  have hkeeps := hpreface.1.2 (by decide +kernel)
  exact ⟨hlines, hfront, hline, hkeeps.description.trans (by decide +kernel),
    (hkeeps.narrative (by decide +kernel)).trans (by decide +kernel)⟩

/-- Free text that begins with the word of a step is lost, and so is the narrative behind it. -/
theorem not_keepsPreface_of_step_word :
    let text : Text := Text.joinLines
      (["Given a bank, money moves", "Narrative:", "In order to pay", "As a customer",
        "I want to have money", "Scenario: paying", "Given ten"].map String.toList)
    let front : List Text := ["Given a bank, money moves".toList]
    let rest : List Text := ["In order to pay", "As a customer", "I want to have money",
      "Scenario: paying", "Given ten"].map String.toList
    Text.lines text = front ++ "Narrative:".toList :: rest ∧
      (∀ l ∈ front, Keywords.english.opensStory l = false) ∧
      Keywords.english.opensStory "Narrative:" = true ∧
      ofText .english text =
        { description := [], narrative := .empty
          scenarios := [{ title := "paying", steps := ["Given ten".toList] }] } ∧
      ¬ (ofText .english text).KeepsPreface .english front "Narrative:" rest := by
  intro text front rest
  have hstory : ofText .english text =
      { description := [], narrative := .empty
        scenarios := [{ title := "paying", steps := ["Given ten".toList] }] } := by
    decide +kernel
  refine ⟨by decide +kernel, by decide +kernel, by decide +kernel, hstory, fun h => ?_⟩
  have hdescription := h.description
  rw [hstory] at hdescription
  exact absurd hdescription (by decide +kernel)

end Story

end PlainStory
