import PlainStory.Proofs.Story.Clauses
import PlainStory.Proofs.Story.Writing

/-!
# Reading written stories back

Reading undoes the writing of a story. The scan of a scenario adds what each of its parts was written
from (`Draft.Adds`), the blocks of lines in front of which a scenario opens are those of the scenarios,
and the clauses of a narrative are found one after another because no clause holds a keyword.
-/

namespace PlainStory

/-! ### Reading a scenario back -/

namespace ScenarioText

open Scenario Scenario.Draft

/-- Paths with a comma and a space between them are, but for the commas, paths behind spaces. -/
theorem space_cons_join {paths : List Text} (hne : paths ≠ []) :
    ' ' :: Text.join ", " paths = Text.join [','] (paths.map (' ' :: ·)) := by
  induction paths with
  | nil => exact absurd rfl hne
  | cons path paths ih =>
    cases paths with
    | nil => simp [Text.join]
    | cons path' paths =>
      have hmap : (path' :: paths).map (' ' :: ·) ≠ [] := by simp
      rw [Text.join_cons (List.cons_ne_nil path' paths), List.map_cons, Text.join_cons hmap,
        ← ih (List.cons_ne_nil path' paths), List.append_assoc, List.append_assoc]
      rfl

theorem pathsOf_space_cons_join {paths : List Text} (h : ∀ path ∈ paths, Text.IsPath path) :
    pathsOf [' ' :: Text.join ", " paths] = paths := by
  by_cases hne : paths = []
  · subst hne
    decide
  · have hcomma : ∀ part ∈ paths.map (' ' :: ·), ',' ∉ part := by
      intro part hpart
      obtain ⟨path, hpath, rfl⟩ := List.mem_map.1 hpart
      rw [List.mem_cons, not_or]
      exact ⟨by decide, (h path hpath).no_comma⟩
    have htrim : (paths.map (' ' :: ·)).map Text.trim = paths := by
      rw [List.map_map]
      refine (List.map_congr_left fun path hpath => ?_).trans (List.map_id paths)
      exact (Text.trim_cons_of_blank (by decide) path).trans (h path hpath).trim
    have hfilter : paths.filter (· ≠ []) = paths :=
      List.filter_eq_self.2 fun path hpath => by simpa using (h path hpath).ne_nil
    rw [pathsOf, show Text.join [','] [' ' :: Text.join ", " paths] = ' ' :: Text.join ", " paths by
      simp [Text.join], space_cons_join hne, Text.splitAt_join (by simpa using hne) hcomma, htrim,
      hfilter]

theorem splitAt_givenStoriesPart {s : ScenarioText} (h : s.IsReadable) :
    Text.splitAt '\n' (Keyword.givenStories.write (Text.join ", " s.givenStories)) =
      [Keyword.givenStories.write (Text.join ", " s.givenStories)] := by
  have hbreak : '\n' ∉ Text.join ", " s.givenStories :=
    Text.not_mem_join (by decide) fun path hpath => (h.givenStories path hpath).no_break
  exact Keyword.givenStories.splitAt_write (Text.splitAt_of_not_mem hbreak)

theorem adds_givenStoriesParts {s : ScenarioText} (h : s.IsReadable) :
    Adds .english (Text.linesOf s.givenStoriesParts) fun t =>
      { t with givenStories := t.givenStories ++ s.givenStories } := by
  rw [givenStoriesParts]
  split
  · next hnil => exact adds_nil fun t => by rw [hnil, List.append_nil]
  · have hnil : ∀ l ∈ ([] : List Text), Keywords.english.opensWithinScenario l = false :=
      List.forall_mem_nil _
    have hadds := adds_givenStories
      (Keywords.opener?_write_givenStories (Text.join ", " s.givenStories)) hnil
    have hrest : Keywords.english.withoutKeyword .givenStories
        (Keyword.givenStories.write (Text.join ", " s.givenStories)) =
          ' ' :: Text.join ", " s.givenStories := rfl
    rw [hrest, pathsOf_space_cons_join h.givenStories] at hadds
    rwa [Text.linesOf_singleton, splitAt_givenStoriesPart h]

theorem stepText_of_isStep {step : Text} (h : Text.IsStep step) : StepText .english step := by
  obtain ⟨first, later, hlines, -⟩ := Text.exists_splitAt_eq_cons step
  refine ⟨h.trim, first, later, hlines, ?_, fun l hl => .inl ?_⟩
  · exact Keywords.opener?_of_startsStep (h.first first (by rw [hlines]; rfl))
  · exact h.later l (by rwa [hlines])

theorem close_addLines_examplesParts (s : ScenarioText) {d : Draft} (hd : d.part ≠ .examples)
    (hnone : d.close.examples = .empty) :
    (d.addLines .english (Text.linesOf s.examplesParts)).close =
      { d.close with examples := s.scenario.examples } := by
  rw [examplesParts, scenario]
  cases s.examples? with
  | none =>
    rw [Text.linesOf_nil, addLines_nil]
    show d.close = { d.close with examples := .empty }
    rw [← hnone]
  | some text =>
    have hread : Text.trim (Text.joinLines ([] :: Text.splitAt '\n' text)) = Text.trim text := by
      rw [Text.trim_joinLines_nil_cons, Text.joinLines_splitAt]
    rw [Text.linesOf_cons, Text.linesOf_singleton, Keyword.splitAt_english, List.singleton_append,
      close_addLines_examples hd rfl]
    rw [show Keywords.english.withoutKeyword .examples Keyword.examples.english = [] from rfl,
      Table.ofText_eq_of_trim hread]
    rfl

/-- The lines of a scenario behind its first one, read after the rest of that line, give the
scenario. -/
theorem ofLines_lines {s : ScenarioText} (h : s.IsReadable) {l : Text} {ls : List Text}
    (hl : Text.splitAt '\n' s.title = l :: ls) :
    ofLines .english (' ' :: l)
        (ls ++ Text.linesOf (s.givenStoriesParts ++ s.steps ++ s.examplesParts)) = s.scenario := by
  have hlater : ∀ line ∈ ls, Keywords.english.opener? line = none := by
    have := h.title_later
    rwa [Text.ContinuesOnly, hl] at this
  have htitle : Text.trim (Text.joinLines ((' ' :: l) :: ls)) = s.title := by
    rw [Text.joinLines_cons_cons, Text.trim_cons_of_blank (by decide), ← hl, Text.joinLines_splitAt,
      h.title_trim]
  let d : Draft := { part := .title, lines := (' ' :: l) :: ls }
  have hd : d.part ≠ .examples := nofun
  have hclose : d.close = { title := s.title } := by
    show ({ title := Text.trim (Text.joinLines ((' ' :: l) :: ls)) } : Scenario) = _
    rw [htitle]
  have hsteps : Adds .english (Text.linesOf s.steps)
      fun t => { t with steps := t.steps ++ s.steps } :=
    adds_steps fun step hstep => stepText_of_isStep (h.steps step hstep)
  have hadds := (adds_givenStoriesParts h).append hsteps
  have hbody := hadds.close d hd
  rw [hclose] at hbody
  rw [ofLines_eq, addLines_append, addLines_of_opener?_eq_none hlater, Text.linesOf_append,
    Text.linesOf_append, addLines_append]
  show ((d.addLines .english _).addLines .english _).close = _
  rw [close_addLines_examplesParts s (hadds.part d hd) (by rw [hbody]; rfl), hbody]
  rfl

theorem opens_scenario_eq_false {line : Text} {o : Option Opener}
    (h : Keywords.english.opener? line = o) (ho : o ≠ some .scenario) :
    Keywords.english.opens .scenario line = false := by
  rw [Keywords.opens, h]
  exact decide_eq_false ho

/-- No line behind the title opens a scenario. -/
theorem opens_scenario_of_mem_body {s : ScenarioText} (h : s.IsReadable) :
    ∀ l ∈ Text.linesOf (s.givenStoriesParts ++ s.steps ++ s.examplesParts),
      Keywords.english.opens .scenario l = false := by
  intro l hl
  rw [Text.linesOf_append, Text.linesOf_append, List.append_assoc] at hl
  rcases List.mem_append.1 hl with hl | hl
  · rw [givenStoriesParts] at hl
    split at hl
    · exact absurd hl nofun
    · rw [Text.linesOf_singleton, splitAt_givenStoriesPart h] at hl
      rw [List.mem_singleton.1 hl]
      exact opens_scenario_eq_false (Keywords.opener?_write_givenStories _) nofun
  rcases List.mem_append.1 hl with hl | hl
  · obtain ⟨step, hstep, hl⟩ := List.mem_flatMap.1 hl
    have hs := h.steps step hstep
    obtain ⟨first, later, hsplit, -⟩ := Text.exists_splitAt_eq_cons step
    rw [hsplit] at hl
    rcases List.mem_cons.1 hl with rfl | hl
    · have hfirst := hs.first l (by rw [hsplit]; rfl)
      exact opens_scenario_eq_false (Keywords.opener?_of_startsStep hfirst) nofun
    · exact opens_scenario_eq_false (hs.later l (by rw [hsplit]; exact hl)) nofun
  · rw [examplesParts] at hl
    split at hl
    · exact absurd hl nofun
    · next text htext =>
      rw [Text.linesOf_cons, Text.linesOf_singleton] at hl
      rcases List.mem_append.1 hl with hl | hl
      · rw [Keyword.splitAt_english] at hl
        rw [List.mem_singleton.1 hl]
        rfl
      · exact opens_scenario_eq_false rfl (h.examples text htext l hl)

/-- The lines of a scenario are a block: the first line opens a scenario, and no other one does. -/
theorem exists_block {s : ScenarioText} (h : s.IsReadable) :
    ∃ line own, Text.linesOf s.parts = line :: own ∧ Keywords.english.opens .scenario line = true ∧
      (∀ l ∈ own, Keywords.english.opens .scenario l = false) ∧
      ofLines .english (Keywords.english.withoutKeyword .scenario line) own = s.scenario := by
  obtain ⟨l, ls, hl, -⟩ := Text.exists_splitAt_eq_cons s.title
  refine ⟨Keyword.scenario.write l,
    ls ++ Text.linesOf (s.givenStoriesParts ++ s.steps ++ s.examplesParts), ?_, rfl, ?_, ?_⟩
  · rw [parts, Text.linesOf_cons, Keyword.scenario.splitAt_write hl, List.cons_append]
  · intro line hline
    rcases List.mem_append.1 hline with hline | hline
    · have hlater := h.title_later line (by rw [hl]; exact hline)
      exact opens_scenario_eq_false hlater nofun
    · exact opens_scenario_of_mem_body h line hline
  · exact ofLines_lines h hl

/-- The lines of scenarios one after another part into their blocks. -/
theorem exists_blocks {scenarios : List ScenarioText} (h : ∀ s ∈ scenarios, s.IsReadable) :
    ∃ blocks, blocksAt (Keywords.english.opens .scenario)
        (Text.linesOf (scenarios.flatMap parts)) = ([], blocks) ∧
      blocks.map (fun (line, own) =>
        ofLines .english (Keywords.english.withoutKeyword .scenario line) own) =
          scenarios.map scenario := by
  induction scenarios with
  | nil => exact ⟨[], rfl, rfl⟩
  | cons s scenarios ih =>
    obtain ⟨hs, hscenarios⟩ := List.forall_mem_cons.1 h
    obtain ⟨line, own, hlines, hline, hown, hread⟩ := exists_block hs
    obtain ⟨blocks, hblocks, hmap⟩ := ih hscenarios
    have hnil : (blocksAt (Keywords.english.opens .scenario)
        (Text.linesOf (scenarios.flatMap parts))).1 = [] := by rw [hblocks]
    have hblock := blocksAt_block hline hown hnil
    refine ⟨(line, own) :: blocks, ?_, ?_⟩
    · rw [List.flatMap_cons, Text.linesOf_append, hlines, List.cons_append, hblock, hblocks]
    · exact congrArg₂ List.cons hread hmap

theorem listOfLines_linesOf {scenarios : List ScenarioText} (h : ∀ s ∈ scenarios, s.IsReadable) :
    listOfLines .english (Text.linesOf (scenarios.flatMap parts)) = scenarios.map scenario := by
  obtain ⟨blocks, hblocks, hmap⟩ := exists_blocks h
  have hread : ofBlocks .english (Text.linesOf (scenarios.flatMap parts)) =
      scenarios.map scenario := by
    rw [ofBlocks, hblocks]
    exact hmap
  rw [listOfLines_eq, hread]
  cases scenarios with
  | nil => rw [List.flatMap_nil, Text.linesOf_nil, List.map_nil, List.all_nil, if_pos rfl, if_pos rfl]
  | cons s scenarios => rw [List.map_cons, if_neg (List.cons_ne_nil _ _)]

end ScenarioText

/-! ### Reading a narrative back -/

namespace NarrativeText

open Narrative

theorem not_isPrefix_space_cons (w : Keyword) (s : Text) : ¬ w.english <+: ' ' :: s := by
  intro hp
  cases w <;> exact absurd (List.cons_prefix_cons.1 hp).1 (by decide)

theorem not_infix_space_cons {w : Keyword} {s : Text} (h : ¬ w.english <:+: s) :
    ¬ w.english <:+: ' ' :: s := by
  rw [List.infix_cons_iff, not_or]
  exact ⟨not_isPrefix_space_cons w s, h⟩

/-- The word that opens a purpose is not in a line of another clause, nor across its word and the
clause. -/
theorem not_inOrderTo_infix_write {s : Text} (h : ¬ Keyword.inOrderTo.english <:+: s) {w : Keyword}
    (hw : w ∈ [Keyword.asA, .iWantTo, .soThat]) : ¬ Keyword.inOrderTo.english <:+: w.write s := by
  obtain ⟨v, hv⟩ : ∃ v, Keyword.inOrderTo.english = 'I' :: 'n' :: v := ⟨_, rfl⟩
  rw [hv] at h ⊢
  simp only [List.mem_cons, List.not_mem_nil, or_false] at hw
  rcases hw with rfl | rfl | rfl
  · show ¬ _ <:+: 'A' :: 's' :: ' ' :: 'a' :: ' ' :: s
    simpa [List.infix_cons_iff] using h
  · show ¬ _ <:+: 'I' :: ' ' :: 'w' :: 'a' :: 'n' :: 't' :: ' ' :: 't' :: 'o' :: ' ' :: s
    simpa [List.infix_cons_iff] using h
  · show ¬ _ <:+: 'S' :: 'o' :: ' ' :: 't' :: 'h' :: 'a' :: 't' :: ' ' :: s
    simpa [List.infix_cons_iff] using h

/-- The clauses of a form are read from their lines. -/
theorem clauses?_write (w₁ w₂ w₃ : Keyword) {a b c : Text} (ha : Text.IsClause a)
    (hb : Text.IsClause b) (hc : Text.IsClause c)
    (h₂ : w₂ ∈ [Keyword.inOrderTo, .asA, .iWantTo, .soThat])
    (h₃ : w₃ ∈ [Keyword.inOrderTo, .asA, .iWantTo, .soThat]) :
    clauses? w₁.english w₂.english w₃.english
      (Text.joinLines [[], w₁.write a, w₂.write b, w₃.write c]) = some (a, b, c) := by
  have hk : ∀ w : Keyword, w.english ≠ [] ∧ '\n' ∉ w.english := Keywords.plain_english.token
  have htrim : ∀ {s}, Text.IsClause s → Text.trim (' ' :: s) = s := fun hs =>
    (Text.trim_cons_of_blank (by decide) _).trans hs.trim
  have h := clauses?_joinLines_of_apart (hk w₁) (hk w₂) (hk w₃) (not_infix_space_cons (ha.words w₂ h₂))
    (not_infix_space_cons (hb.words w₃ h₃)) (' ' :: c)
  rwa [htrim ha, htrim hb, htrim hc] at h

/-- The form that opens with its purpose is not found where the other one is written. -/
theorem clauses?_inOrderTo_eq_none {a b c : Text} (ha : Text.IsClause a) (hb : Text.IsClause b)
    (hc : Text.IsClause c) (second third : Text) :
    clauses? Keyword.inOrderTo.english second third
      (Text.joinLines [[], Keyword.asA.write a, Keyword.iWantTo.write b, Keyword.soThat.write c]) =
        none := by
  have hlines : ∀ line ∈ [[], Keyword.asA.write a, Keyword.iWantTo.write b,
      Keyword.soThat.write c], ¬ Keyword.inOrderTo.english <:+: line := by
    simp only [List.forall_mem_cons]
    exact ⟨by decide, not_inOrderTo_infix_write (ha.words _ (by simp)) (by simp),
      not_inOrderTo_infix_write (hb.words _ (by simp)) (by simp),
      not_inOrderTo_infix_write (hc.words _ (by simp)) (by simp), nofun⟩
  have hcut : Text.cut? Keyword.inOrderTo.english _ = none :=
    Text.cut?_joinLines_eq_none (Keywords.plain_english.no_break .inOrderTo)
      (Keywords.plain_english.ne_nil .inOrderTo) hlines
  rw [clauses?, hcut]
  rfl

theorem ofText_clauses {n : NarrativeText} (h : ∀ clause ∈ n.clauses, Text.IsClause clause.2) :
    Narrative.ofText .english (Text.joinLines ([] :: n.clauses.map fun (w, c) => w.write c)) =
      n.narrative := by
  cases n with
  | absent => decide
  | bare => decide
  | purpose a b c =>
    have ha : Text.IsClause a := h (.inOrderTo, a) (by simp [clauses])
    have hb : Text.IsClause b := h (.asA, b) (by simp [clauses])
    have hc : Text.IsClause c := h (.iWantTo, c) (by simp [clauses])
    have hread := clauses?_write .inOrderTo .asA .iWantTo ha hb hc (by simp) (by simp)
    simp only [ofText, clauses, List.map_cons, List.map_nil]
    rw [show Keywords.english.token = Keyword.english from rfl, hread]
    rfl
  | benefit a b c =>
    have ha : Text.IsClause a := h (.asA, a) (by simp [clauses])
    have hb : Text.IsClause b := h (.iWantTo, b) (by simp [clauses])
    have hc : Text.IsClause c := h (.soThat, c) (by simp [clauses])
    have hread := clauses?_write .asA .iWantTo .soThat ha hb hc (by simp) (by simp)
    simp only [ofText, clauses, List.map_cons, List.map_nil]
    rw [show Keywords.english.token = Keyword.english from rfl,
      clauses?_inOrderTo_eq_none ha hb hc, hread]
    rfl

theorem word_mem_of_mem_clauses {n : NarrativeText} {clause : Keyword × Text}
    (h : clause ∈ n.clauses) : clause.1 ∈ [Keyword.inOrderTo, .asA, .iWantTo, .soThat] := by
  cases n <;> simp only [clauses, List.mem_cons, List.not_mem_nil, or_false] at h
  · rcases h with rfl | rfl | rfl <;> simp
  · rcases h with rfl | rfl | rfl <;> simp

/-- No line of a written clause opens anything. -/
theorem opener?_of_mem_clauseLines {n : NarrativeText}
    (h : ∀ clause ∈ n.clauses, Text.OpensNothing clause.2) :
    ∀ l ∈ Text.linesOf (n.clauses.map fun (w, c) => w.write c),
      Keywords.english.opener? l = none := by
  intro l hl
  obtain ⟨part, hpart, hl⟩ := List.mem_flatMap.1 hl
  obtain ⟨⟨w, c⟩, hclause, rfl⟩ := List.mem_map.1 hpart
  obtain ⟨first, later, hsplit, -⟩ := Text.exists_splitAt_eq_cons c
  rw [w.splitAt_write hsplit] at hl
  rcases List.mem_cons.1 hl with rfl | hl
  · exact Keywords.opener?_write_clause (word_mem_of_mem_clauses hclause) first
  · exact h (w, c) hclause l (by rw [hsplit]; exact List.mem_cons_of_mem first hl)

theorem parts_eq {n : NarrativeText} (hn : n ≠ absent) :
    n.parts = Keyword.narrative.english :: n.clauses.map fun (w, c) => w.write c := by
  cases n with
  | absent => exact absurd rfl hn
  | bare => rfl
  | purpose => rfl
  | benefit => rfl

theorem linesOf_parts {n : NarrativeText} (hn : n ≠ absent) :
    Text.linesOf n.parts = Keyword.narrative.english ::
      Text.linesOf (n.clauses.map fun (w, c) => w.write c) := by
  rw [parts_eq hn, Text.linesOf_cons, Keyword.splitAt_english, List.singleton_append]

/-- The clauses of a written narrative are read from the text behind its keyword, as far as the first
scenario. -/
theorem ofLines_append_of_ne_absent {n : NarrativeText} (hn : n ≠ absent)
    (h : ∀ clause ∈ n.clauses, Text.OpensNothing clause.2) {rest : List Text}
    (hrest : ∀ l ∈ rest.head?, Keywords.english.opens .scenario l = true) :
    ofLines .english (Text.linesOf n.parts ++ rest) =
      (ofText .english (Text.joinLines ([] :: n.clauses.map fun (w, c) => w.write c)), rest) := by
  have hjoin : Text.joinLines (Text.linesOf n.parts) = Keyword.narrative.english ++
      Text.joinLines ([] :: n.clauses.map fun (w, c) => w.write c) := by
    rw [Text.joinLines_linesOf, parts_eq hn, ← Text.joinLines_append_cons, List.append_nil]
  have hpart := partLines_append (opener?_of_mem_clauseLines h) hrest
  have hopens : Keywords.english.opener? Keyword.narrative.english = some .narrative := by decide
  rw [linesOf_parts hn] at hjoin ⊢
  rw [List.cons_append, ofLines_of_opens hopens, hpart, hjoin]
  rfl

/-- The lines of a narrative are read as far as the first scenario. -/
theorem ofLines_append {n : NarrativeText} (h : ∀ clause ∈ n.clauses, Text.IsClause clause.2)
    {rest : List Text} (hrest : ∀ l ∈ rest.head?, Keywords.english.opens .scenario l = true) :
    ofLines .english (Text.linesOf n.parts ++ rest) = (n.narrative, rest) := by
  by_cases hn : n = absent
  · subst hn
    cases rest with
    | nil => rfl
    | cons line lines =>
      have hline : Keywords.english.opener? line = some .scenario := by
        simpa [Keywords.opens] using hrest line rfl
      exact ofLines_of_not_opens (by simp [hline]) lines
  · rw [ofLines_append_of_ne_absent hn (fun clause hc => (h clause hc).lines) hrest, ofText_clauses h]

end NarrativeText

/-! ### Reading a story back -/

namespace StoryText

theorem head?_linesOf_scenarios {scenarios : List ScenarioText}
    (h : ∀ s ∈ scenarios, s.IsReadable) :
    ∀ l ∈ (Text.linesOf (scenarios.flatMap ScenarioText.parts)).head?,
      Keywords.english.opens .scenario l = true := by
  cases scenarios with
  | nil => exact nofun
  | cons s scenarios =>
    obtain ⟨line, own, hlines, hline, -⟩ := ScenarioText.exists_block (h s List.mem_cons_self)
    rw [List.flatMap_cons, Text.linesOf_append, hlines]
    intro l hl
    rwa [← Option.some.inj hl]

/-- What follows the description opens something. -/
theorem head?_linesOf_rest (n : NarrativeText) {rest : List Text}
    (hrest : ∀ l ∈ rest.head?, Keywords.english.opens .scenario l = true) :
    ∀ l ∈ (Text.linesOf n.parts ++ rest).head?, Keywords.english.opener? l ≠ none := by
  intro l hl
  by_cases hn : n = .absent
  · subst hn
    have hopener : Keywords.english.opener? l = some .scenario := of_decide_eq_true (hrest l hl)
    simp [hopener]
  · rw [NarrativeText.linesOf_parts hn] at hl
    obtain rfl := Option.some.inj hl
    decide

/-- The lines of a written story hold the story. -/
theorem ofLines_linesOf {s : StoryText} (h : s.IsReadable) (path? : Option Text) :
    Story.ofLines .english (Text.linesOf s.parts) path? = s.story path? := by
  have hscenarios := head?_linesOf_scenarios h.scenarios
  have hdescription : ∀ l ∈ Text.linesOf s.descriptionParts,
      Keywords.english.opener? l = none := by
    intro l hl
    rw [descriptionParts] at hl
    split at hl
    · exact absurd hl nofun
    · rw [Text.linesOf_singleton] at hl
      exact h.description_lines l hl
  have htrim : Text.trim (Text.joinLines (Text.linesOf s.descriptionParts)) = s.description := by
    rw [Text.joinLines_linesOf, descriptionParts]
    split
    · next hnil => rw [hnil]; rfl
    · rw [Text.joinLines_singleton, h.description_trim]
  rw [parts, Text.linesOf_append, Text.linesOf_append, List.append_assoc,
    Story.ofLines_append hdescription (head?_linesOf_rest s.narrative hscenarios),
    NarrativeText.ofLines_append h.narrative hscenarios, htrim,
    ScenarioText.listOfLines_linesOf h.scenarios]
  rfl

theorem not_mem_of_mem_linesOf {s : StoryText} (h : s.IsReadable) :
    ∀ l ∈ Text.linesOf s.parts, '\n' ∉ l ∧ '\r' ∉ l := by
  intro l hl
  obtain ⟨part, hpart, hl⟩ := List.mem_flatMap.1 hl
  have hmem := Text.mem_of_mem_splitAt hl
  exact ⟨fun hc => (hmem _ hc).2 rfl, fun hc => h.no_return part hpart (hmem _ hc).1⟩

theorem return_not_mem_write {s : StoryText} (h : s.IsReadable) : '\r' ∉ s.write :=
  Text.not_mem_join (by decide) h.no_return

/-- Reading undoes writing, with any line breaks in front of the text and behind it. -/
theorem ofText_write {s : StoryText} (h : s.IsReadable) (m n : Nat) (path? : Option Text) :
    Story.ofText .english (List.replicate m '\n' ++ s.write ++ List.replicate n '\n') path? =
      s.story path? := by
  rw [Story.ofText_append_breaks Keywords.plain_english (return_not_mem_write h),
    Story.ofText_eq_ofLines, ← ofLines_linesOf h, write, ← Text.joinLines_linesOf]
  rcases Text.lines_joinLines (not_mem_of_mem_linesOf h) with hlines | hlines
  · rw [hlines]
  · rw [hlines, Story.ofLines_concat_nil Keywords.plain_english, ← hlines]

theorem ofText_write_of_two_scenarios :
    ∃ s : StoryText, s.IsReadable ∧ s.scenarios.length = 2 ∧ s.write = Text.joinLines
        (["Money moves", "Narrative:", "As a customer", "I want to pay", "So that all is", "well",
          "Scenario: Paying", "GivenStories: open.story, fill.story", "Given ten",
          "When I pay", "  it all", "Scenario: Given back", "Then <n> is back", "Examples:", "|n|",
          "|1|"].map String.toList) ∧
      Story.ofText .english ("\n" ++ s.write ++ "\n") = s.story none := by
  let s : StoryText :=
    { description := "Money moves"
      narrative := .benefit "customer" "pay" "all is\nwell"
      scenarios :=
        [{ title := "Paying"
           givenStories := ["open.story", "fill.story"].map String.toList
           steps := ["Given ten", "When I pay\n  it all"].map String.toList
           examples? := none },
          { title := "Given back"
            givenStories := []
            steps := ["Then <n> is back"].map String.toList
            examples? := some "|n|\n|1|" }] }
  have hs : s.IsReadable := by decide +kernel
  exact ⟨s, hs, rfl, by decide +kernel, ofText_write hs 1 1 none⟩

end StoryText

end PlainStory
