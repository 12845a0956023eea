import Mathlib.Data.List.Induction
import PlainStory.Proofs.Story.Breaks
import PlainStory.Proofs.Text.Lines

/-!
# Steps read again

The steps of a scenario on lines of their own are a story with one scenario that has the same steps.
`StepText` says what a text is like that is read as one step. The steps that a scan has closed are such
texts and the lines of an open step become one, however the scan came to it; and texts that are such
steps are read as themselves.
-/

namespace PlainStory

variable {k : Keywords}

open Scenario

/-! ### Closing a step -/

/-- Without the blanks at its end, a text of lines is one of lines that open the same: the blank last
ones are gone, and the blanks at the end of the last one that is left. -/
theorem exists_trimEnd_joinLines (hk : k.Tidy) (first : Text) (later : List Text)
    (hbreak : ∀ l ∈ first :: later, '\n' ∉ l) :
    ∃ first' later', Text.trimEnd (Text.joinLines (first :: later)) =
        Text.joinLines (first' :: later') ∧ k.opener? first' = k.opener? first ∧
      (∀ l ∈ later', ∃ m ∈ later, k.opener? l = k.opener? m) ∧
      ∀ l ∈ first' :: later', '\n' ∉ l := by
  induction later using List.reverseRecOn with
  | nil =>
    refine ⟨Text.trimEnd first, [], ?_, Keywords.opener?_trimEnd hk first, nofun, ?_⟩
    · rw [Text.joinLines_singleton, Text.joinLines_singleton]
    · intro l hl hn
      obtain rfl := List.mem_singleton.1 hl
      exact hbreak first List.mem_cons_self (Text.mem_of_mem_trimEnd hn)
  | append_singleton later l ih =>
    rw [← List.cons_append] at hbreak ⊢
    obtain ⟨hfront, hl⟩ := List.forall_mem_append.1 hbreak
    have hjoin : ∀ m, Text.joinLines ((first :: later) ++ [m]) =
        (Text.joinLines (first :: later) ++ ['\n']) ++ m := fun m => by
      rw [Text.joinLines_append (List.cons_ne_nil first later) (List.cons_ne_nil _ _),
        Text.joinLines_singleton, List.append_assoc, List.singleton_append]
    rw [hjoin]
    cases hb : Text.blank l with
    | true =>
      obtain ⟨first', later', htrim, hopener, hlater, hbreak'⟩ := ih hfront
      refine ⟨first', later', ?_, hopener, fun m hm => ?_, hbreak'⟩
      · rw [Text.trimEnd_append_of_blank _ (List.all_eq_true.1 hb),
          Text.trimEnd_append_of_blank _ Text.isBlank_newline, htrim]
      · obtain ⟨m', hm', ho⟩ := hlater m hm
        exact ⟨m', List.mem_append_left [l] hm', ho⟩
    | false =>
      refine ⟨first, later ++ [Text.trimEnd l], ?_, rfl, ?_, ?_⟩
      · rw [Text.trimEnd_append_of_not_blank _ hb, ← hjoin, List.cons_append]
      · refine List.forall_mem_append.2 ⟨fun m hm => ⟨m, List.mem_append_left [l] hm, rfl⟩, ?_⟩
        intro m hm
        obtain rfl := List.mem_singleton.1 hm
        exact ⟨l, List.mem_append_right later (List.mem_singleton_self l),
          Keywords.opener?_trimEnd hk l⟩
      · rw [← List.cons_append]
        refine List.forall_mem_append.2 ⟨hfront, fun m hm hn => ?_⟩
        obtain rfl := List.mem_singleton.1 hm
        exact hl l (List.mem_singleton_self l) (Text.mem_of_mem_trimEnd hn)

/-- The lines of a step that is being read. -/
structure OpenStep (k : Keywords) (lines : List Text) : Prop where
  parts : ∃ first later, lines = first :: later ∧ Text.trimStart first = first ∧
    k.opener? first = some .step ∧
    ∀ l ∈ later, k.opener? l = none ∨ k.opener? l = some .narrative
  breaks : ∀ l ∈ lines, '\n' ∉ l ∧ '\r' ∉ l

/-- What a step is that a scan has read. -/
structure ReadStep (k : Keywords) (step : Text) : Prop where
  text : Draft.StepText k step
  no_return : '\r' ∉ step

theorem OpenStep.readStep (hk : k.Tidy) {lines : List Text} (h : OpenStep k lines) :
    ReadStep k (Text.trim (Text.joinLines lines)) := by
  obtain ⟨first, later, rfl, hstart, hfirst, hlater⟩ := h.parts
  have hne := Keywords.not_blank_of_opener? hk.ne_nil hfirst
  have htrimStart : Text.trimStart (Text.joinLines (first :: later)) =
      Text.joinLines (first :: later) := by
    obtain ⟨t, ht⟩ := Text.exists_joinLines_cons first later
    rw [ht, Text.trimStart_append_of_not_blank hne, hstart]
  obtain ⟨first', later', htrim, hopener, hlater', hbreak⟩ :=
    exists_trimEnd_joinLines hk first later fun l hl => (h.breaks l hl).1
  have hstep : Text.trim (Text.joinLines (first :: later)) = Text.joinLines (first' :: later') := by
    rw [Text.trim, htrimStart, htrim]
  refine ⟨⟨Text.trim_trim _, first', later', ?_, hopener.trans hfirst, fun l hl => ?_⟩, ?_⟩
  · rw [hstep]
    exact Text.splitAt_join (List.cons_ne_nil first' later') hbreak
  · obtain ⟨m, hm, ho⟩ := hlater' l hl
    rw [ho]
    exact hlater m hm
  · intro hr
    have hmem := Text.mem_of_mem_trimStart (Text.mem_of_mem_trimEnd hr)
    exact Text.not_mem_join (by decide) (fun l hl => (h.breaks l hl).2) hmem

/-! ### Scanning -/

namespace Scenario.Draft

/-- The steps of a draft are such that can be read again, and so is the one that is open. -/
structure ReadsSteps (k : Keywords) (d : Draft) : Prop where
  done : ∀ step ∈ d.done.steps, ReadStep k step
  opened : d.part = .step → OpenStep k d.lines

variable {d : Draft}

theorem ReadsSteps.close (hk : k.Tidy) (h : d.ReadsSteps k) :
    ∀ step ∈ d.close.steps, ReadStep k step := by
  rw [Draft.close]
  cases hp : d.part with
  | title => exact h.done
  | givenStories => exact h.done
  | examples => exact h.done
  | step =>
    refine List.forall_mem_append.2 ⟨h.done, fun step hstep => ?_⟩
    obtain rfl := List.mem_singleton.1 hstep
    exact (h.opened hp).readStep hk

theorem ReadsSteps.turnTo (hk : k.Tidy) (h : d.ReadsSteps k) {part : Part} (hpart : part ≠ .step)
    (line : Text) : (d.turnTo part line).ReadsSteps k :=
  ⟨h.close hk, fun hstep => absurd hstep hpart⟩

theorem ReadsSteps.longer (h : d.ReadsSteps k) {line : Text} (hbreaks : '\n' ∉ line ∧ '\r' ∉ line)
    (hline : d.part ≠ .examples → k.opener? line = none ∨ k.opener? line = some .narrative) :
    ReadsSteps k { d with lines := d.lines ++ [line] } := by
  refine ⟨h.done, fun hstep => ?_⟩
  have hopen := h.opened hstep
  obtain ⟨first, later, hlines, hstart, hfirst, hlater⟩ := hopen.parts
  refine ⟨⟨first, later ++ [line], ?_, hstart, hfirst, ?_⟩, ?_⟩
  · rw [hlines, List.cons_append]
  · refine List.forall_mem_append.2 ⟨hlater, fun l hl => ?_⟩
    obtain rfl := List.mem_singleton.1 hl
    exact hline (by rw [hstep]; exact nofun)
  · refine List.forall_mem_append.2 ⟨hopen.breaks, fun l hl => ?_⟩
    obtain rfl := List.mem_singleton.1 hl
    exact hbreaks

theorem ReadsSteps.addLine (hk : k.Tidy) (h : d.ReadsSteps k) {line : Text}
    (hbreaks : '\n' ∉ line ∧ '\r' ∉ line) (hline : k.opens .scenario line = false) :
    (d.addLine k line).ReadsSteps k := by
  rw [Draft.addLine]
  by_cases hd : d.part = .examples
  · rw [if_pos hd]
    exact h.longer hbreaks fun hne => absurd hd hne
  · rw [if_neg hd]
    cases ho : k.opener? line with
    | none => exact h.longer hbreaks fun _ => .inl ho
    | some o =>
      cases o with
      | scenario => exact absurd ho (of_decide_eq_false hline)
      | narrative => exact h.longer hbreaks fun _ => .inr ho
      | givenStories =>
        have hpart : Part.givenStories ≠ .step := by decide
        exact h.turnTo hk hpart _
      | examples =>
        have hpart : Part.examples ≠ .step := by decide
        exact h.turnTo hk hpart _
      | step =>
        have hopener : k.opener? (Text.trimStart line) = some .step :=
          (Keywords.opener?_of_trimStart (Text.trimStart_trimStart line)).trans ho
        refine ⟨h.close hk, fun _ => ⟨⟨_, [], rfl, Text.trimStart_trimStart line, hopener,
          List.forall_mem_nil _⟩, ?_⟩⟩
        intro l hl
        obtain rfl := List.mem_singleton.1 hl
        exact ⟨fun hn => hbreaks.1 (Text.mem_of_mem_trimStart hn),
          fun hr => hbreaks.2 (Text.mem_of_mem_trimStart hr)⟩

theorem ReadsSteps.addLines (hk : k.Tidy) (h : d.ReadsSteps k) {lines : List Text}
    (hlines : ∀ l ∈ lines, ('\n' ∉ l ∧ '\r' ∉ l) ∧ k.opens .scenario l = false) :
    (d.addLines k lines).ReadsSteps k := by
  induction lines generalizing d with
  | nil => exact h
  | cons line lines ih =>
    obtain ⟨⟨hbreaks, hline⟩, hlines⟩ := List.forall_mem_cons.1 hlines
    exact ih (h.addLine hk hbreaks hline) hlines

end Scenario.Draft

namespace Scenario

theorem readStep_of_mem_ofLines (hk : k.Tidy) (title : Text) {lines : List Text}
    (hlines : ∀ l ∈ lines, ('\n' ∉ l ∧ '\r' ∉ l) ∧ k.opens .scenario l = false) :
    ∀ step ∈ (ofLines k title lines).steps, ReadStep k step := by
  have hstart : Draft.ReadsSteps k { part := .title, lines := [title] } := ⟨nofun, nofun⟩
  exact (hstart.addLines hk hlines).close hk

end Scenario

namespace Story

theorem readStep_of_mem_ofText (hk : k.Tidy) {text : Text} (hr : '\r' ∉ text)
    {path? : Option Text} {s : Scenario} (hs : s ∈ (ofText k text path?).scenarios) :
    ∀ step ∈ s.steps, ReadStep k step := by
  rw [ofText_eq_ofLines, ofLines, List.span_eq_takeWhile_dropWhile] at hs
  obtain ⟨title, own, rfl, hown⟩ := Scenario.exists_of_mem_listOfLines hs
  refine Scenario.readStep_of_mem_ofLines hk title fun l hl => ?_
  have hmem : l ∈ Text.lines text :=
    (List.dropWhile_sublist _).subset (Narrative.mem_of_mem_ofLines l (hown l hl).1)
  exact ⟨⟨Text.newline_not_mem_lines l hmem, fun h => hr (Text.mem_of_mem_lines l hmem _ h)⟩,
    (hown l hl).2⟩

end Story

/-! ### Reading steps again -/

theorem ReadStep.not_blank (hk : k.Tidy) {step : Text} (h : ReadStep k step) :
    Text.blank step = false := by
  obtain ⟨first, later, hlines, hfirst, -⟩ := h.text.lines
  have hne := Keywords.not_blank_of_opener? hk.ne_nil hfirst
  obtain ⟨t, ht⟩ := Text.exists_joinLines_cons first later
  rw [← Text.joinLines_splitAt step, hlines, ht, Text.blank_append, hne, Bool.false_and]

theorem lines_joinLines_of_readStep (hk : k.Tidy) {steps : List Text}
    (h : ∀ step ∈ steps, ReadStep k step) :
    Text.lines (Text.joinLines steps) = steps.flatMap (Text.splitAt '\n') := by
  rcases List.eq_nil_or_concat steps with rfl | ⟨init, last, rfl⟩
  · rfl
  rw [List.concat_eq_append] at h ⊢
  have hlast := h last (List.mem_append_right init (List.mem_singleton_self last))
  have hne := hlast.not_blank hk
  have hjoin : Text.joinLines (init ++ [last]) = Text.joinLines (init ++ [[]]) ++ last :=
    Text.joinLines_concat_append init [] last
  have htrim : Text.trimEnd (Text.joinLines (init ++ [last])) = Text.joinLines (init ++ [last]) := by
    rw [hjoin, Text.trimEnd_append_of_not_blank _ hne, Text.trimEnd_of_trim hlast.text.trim]
  have hnil : Text.joinLines (init ++ [last]) ≠ [] := by
    rw [hjoin]
    refine List.append_ne_nil_of_right_ne_nil _ ?_
    rintro rfl
    exact absurd hne nofun
  have hbreaks : ∀ l ∈ (init ++ [last]).flatMap (Text.splitAt '\n'), '\n' ∉ l ∧ '\r' ∉ l := by
    intro l hl
    obtain ⟨step, hstep, hl⟩ := List.mem_flatMap.1 hl
    exact ⟨fun hn => (Text.mem_of_mem_splitAt hl _ hn).2 rfl,
      fun hr => (h step hstep).no_return (Text.mem_of_mem_splitAt hl _ hr).1⟩
  have hlines := Text.lines_joinLines_of_trimEnd hbreaks
  rw [Text.joinLines_flatMap_splitAt] at hlines
  exact hlines hnil htrim

namespace Scenario

/-- Lines of which the first opens a step and none a scenario are one scenario without a title. -/
theorem listOfLines_of_step {first : Text} {lines : List Text}
    (hk : ∀ w, k.token w ≠ []) (hfirst : k.opener? first = some .step)
    (hlines : ∀ l ∈ first :: lines, k.opens .scenario l = false) :
    listOfLines k (first :: lines) = [ofLines k [] (first :: lines)] := by
  have hblocks : ofBlocks k (first :: lines) = [] := by
    have h := blocksAt_append hlines []
    rw [List.append_nil] at h
    rw [ofBlocks, h]
    rfl
  have hblank : (first :: lines).all Text.blank = false := by
    rw [List.all_cons, Keywords.not_blank_of_opener? hk hfirst, Bool.false_and]
  rw [listOfLines_eq, hblocks, if_pos rfl, hblank]
  rfl

end Scenario

namespace Story

/-- Steps that are read again are the only ones of the only scenario. -/
theorem ofText_joinLines (hk : k.Tidy) {steps : List Text} (hne : steps ≠ [])
    (h : ∀ step ∈ steps, ReadStep k step) (path? : Option Text) :
    ofText k (Text.joinLines steps) path? = { path?, scenarios := [{ steps }] } := by
  have hscenario : ∀ l ∈ steps.flatMap (Text.splitAt '\n'), k.opens .scenario l = false := by
    intro l hl
    obtain ⟨step, hstep, hl⟩ := List.mem_flatMap.1 hl
    obtain ⟨first, later, hlines, hfirst, hlater⟩ := (h step hstep).text.lines
    rw [hlines] at hl
    refine decide_eq_false ?_
    rcases List.mem_cons.1 hl with rfl | hl
    · rw [hfirst]
      exact nofun
    · rcases hlater l hl with ho | ho <;> rw [ho] <;> exact nofun
  have hsteps : Scenario.ofLines k [] (steps.flatMap (Text.splitAt '\n')) =
      { steps := steps } := by
    have hadds := Draft.adds_steps fun step hstep => (h step hstep).text
    exact hadds.close { part := .title, lines := [[]] } nofun
  obtain ⟨step, steps', rfl⟩ := List.exists_cons_of_ne_nil hne
  obtain ⟨first, later, hlines, hfirst, -⟩ := (h step List.mem_cons_self).text.lines
  have hall : (step :: steps').flatMap (Text.splitAt '\n') =
      first :: (later ++ steps'.flatMap (Text.splitAt '\n')) := by
    rw [List.flatMap_cons, hlines, List.cons_append]
  rw [ofText_eq_ofLines, lines_joinLines_of_readStep hk h, hall]
  rw [hall] at hscenario hsteps
  generalize later ++ steps'.flatMap (Text.splitAt '\n') = rest at hscenario hsteps
  have hopens : ∀ l ∈ (first :: rest).head?, k.opener? l ≠ none := by simp [hfirst]
  have hno : k.opener? first ≠ some .narrative := by simp [hfirst]
  rw [← List.nil_append (first :: rest), ofLines_append (List.forall_mem_nil _) hopens,
    Narrative.ofLines_of_not_opens hno, listOfLines_of_step hk.ne_nil hfirst hscenario, hsteps]
  rfl

/-- The steps of a scenario, read again, are the same steps of a scenario with nothing else in a story
with nothing else. Each of them is a text whose first line opens a step and whose other lines open
none, nor anything that a scenario holds or a scenario. -/
theorem ofText_steps (hk : k.Tidy) {text : Text} (hr : '\r' ∉ text) (path? path'? : Option Text)
    {s : Scenario} (hs : s ∈ (ofText k text path?).scenarios) (hne : s.steps ≠ []) :
    ofText k (Text.joinLines s.steps) path'? =
        { path? := path'?, description := [], narrative := .empty,
          scenarios := [{ title := [], givenStories := [], steps := s.steps, examples := .empty }] } ∧
      ∀ step ∈ s.steps, Text.trim step = step ∧ k.startsStep step = true ∧
        ∃ first later, Text.lines step = first :: later ∧ k.opener? first = some .step ∧
          ∀ l ∈ later, k.opener? l = none ∨ k.opener? l = some .narrative := by
  have hsteps := readStep_of_mem_ofText hk hr hs
  refine ⟨ofText_joinLines hk hne hsteps path'?, fun step hstep => ?_⟩
  have hread := hsteps step hstep
  obtain ⟨first, later, hlines, hfirst, hlater⟩ := hread.text.lines
  have hnil : step ≠ [] := by
    rintro rfl
    exact absurd (hread.not_blank hk) nofun
  have hsplit := Text.lines_eq_splitAt hread.no_return hnil (Text.trimEnd_of_trim hread.text.trim)
  refine ⟨hread.text.trim, ?_, first, later, hsplit.trans hlines, hfirst, hlater⟩
  have hstarts := Keywords.startsStep_of_opener? hfirst
  rw [← Text.joinLines_splitAt step, hlines]
  cases later with
  | nil =>
    rw [Text.joinLines_singleton]
    exact hstarts
  | cons l ls =>
    rw [Text.joinLines_cons first (List.cons_ne_nil l ls)]
    exact Keywords.startsStep_append hk.ne_nil hstarts rfl

/-- A scenario with a line of a narrative and blank lines in a step, and given stories between two
steps. -/
def talk : Text :=
  "Scenario: a talk\n\n  Given a guest  \n   who waits \n\nNarrative: none here \n\n" ++
    "GivenStories: one.story\nWhen the host\n  comes\n \n"

theorem ofText_steps_of_talk :
    ∃ s ∈ (ofText .english talk).scenarios, s.givenStories = [("one.story" : Text)] ∧
      s.steps = [("Given a guest  \n   who waits \n\nNarrative: none here" : Text),
        "When the host\n  comes"] ∧
      ofText .english (Text.joinLines s.steps) = { scenarios := [{ steps := s.steps }] } := by
  have hmem : { title := "a talk", givenStories := ["one.story"]
                steps := ["Given a guest  \n   who waits \n\nNarrative: none here",
                  "When the host\n  comes"] } ∈ (ofText .english talk).scenarios := by
    decide +kernel
  have hr : '\r' ∉ talk := by decide +kernel
  have h := ofText_steps Keywords.tidy_english hr none none hmem (List.cons_ne_nil _ _)
  exact ⟨_, hmem, rfl, rfl, h.1⟩

end Story

end PlainStory
