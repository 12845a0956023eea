import PlainStory.Proofs.Text.Basic
import PlainStory.Story.Reader

/-!
# Blocks of lines

How the narrative, the scenarios and the parts of a scenario come from their lines. A block is a line
that opens something and the lines after it that go with it. `Draft.Adds` says what lines do to the
scenario read so far, and lines one after another do one thing after another.
-/

namespace PlainStory

/-! ### Narratives -/

namespace Narrative

variable {k : Keywords} {line : Text}

/-- A narrative is read only from the line that opens it and those that belong to it. -/
theorem ofLines_of_opens (h : k.opener? line = some .narrative) (lines : List Text) :
    ofLines k (line :: lines) =
      (ofText k (k.withoutKeyword .narrative (Text.joinLines (line :: (partLines k lines).1))),
        (partLines k lines).2) := by
  have hopens : k.opens .narrative line = true := decide_eq_true h
  rw [ofLines, if_pos hopens]

theorem ofLines_of_not_opens (h : k.opener? line ≠ some .narrative) (lines : List Text) :
    ofLines k (line :: lines) = (.empty, line :: lines) := by
  have hopens : ¬ k.opens .narrative line = true := by simpa [Keywords.opens] using h
  rw [ofLines, if_neg hopens]

/-- The lines in front of the first scenario belong to the narrative. -/
theorem partLines_append_scenario {own : List Text}
    (hown : ∀ l ∈ own, k.opens .scenario l = false) (hline : k.opens .scenario line = true)
    (lines : List Text) :
    partLines k (own ++ line :: lines) = (own, line :: lines) := by
  have hany : (own ++ line :: lines).any (k.opens .scenario) = true :=
    List.any_eq_true.2 ⟨line, List.mem_append_right own List.mem_cons_self, hline⟩
  rw [partLines, if_pos hany]
  refine Text.span_append_eq (by simpa using hown) fun l hl => ?_
  obtain rfl := Option.some.inj hl
  rw [hline]
  rfl

/-- Lines that open nothing belong to the narrative up to the first scenario. -/
theorem partLines_append {own rest : List Text}
    (hown : ∀ l ∈ own, k.opener? l = none) (hrest : ∀ l ∈ rest.head?, k.opens .scenario l = true) :
    partLines k (own ++ rest) = (own, rest) := by
  have hopens : ∀ l ∈ own, k.opens .scenario l = false := fun l hl => by
    simp [Keywords.opens, hown l hl]
  have hwithin : ∀ l ∈ own, k.opensWithinScenario l = false := fun l hl => by
    simp [Keywords.opensWithinScenario, hown l hl]
  cases rest with
  | nil =>
    have hany : ¬ (own ++ []).any (k.opens .scenario) = true := by
      rw [List.append_nil, List.any_eq_true]
      rintro ⟨l, hl, h⟩
      exact absurd (hopens l hl) (by simp [h])
    rw [partLines, if_neg hany, List.append_nil]
    exact Text.span_eq_self (by simpa using hwithin)
  | cons line lines => exact partLines_append_scenario hopens (hrest line rfl) lines

theorem mem_of_mem_ofLines {lines : List Text} :
    ∀ l ∈ (ofLines k lines).2, l ∈ lines := by
  intro l hl
  cases lines with
  | nil => exact hl
  | cons line lines =>
    rw [ofLines] at hl
    split at hl
    · refine List.mem_cons_of_mem line ?_
      simp only [partLines] at hl
      split at hl <;> rw [List.span_eq_takeWhile_dropWhile] at hl <;>
        exact (List.dropWhile_sublist _).subset hl
    · exact hl

end Narrative

namespace Scenario

/-! ### Scenarios -/

/-- Lines at which no block starts stand in front of the first block. -/
theorem blocksAt_append {p : Text → Bool} {own : List Text} (hown : ∀ l ∈ own, p l = false)
    (more : List Text) :
    blocksAt p (own ++ more) = (own ++ (blocksAt p more).1, (blocksAt p more).2) := by
  induction own with
  | nil => rfl
  | cons l ls ih =>
    obtain ⟨hl, hls⟩ := List.forall_mem_cons.1 hown
    simp only [List.cons_append, blocksAt, ih hls, hl, Bool.false_eq_true, if_false]

/-- A line at which a block starts takes the lines up to the next one with it. -/
theorem blocksAt_block {p : Text → Bool} {line : Text} {own more : List Text}
    (hline : p line = true) (hown : ∀ l ∈ own, p l = false) (hmore : (blocksAt p more).1 = []) :
    blocksAt p (line :: (own ++ more)) = ([], (line, own) :: (blocksAt p more).2) := by
  simp only [blocksAt, blocksAt_append hown, hmore, List.append_nil, hline, if_true]

/-- Blocks behind which a new one starts are the same as without it. -/
theorem blocksAt_append_block {p : Text → Bool} (ls : List Text) {line : Text}
    (hline : p line = true) (lines : List Text) :
    blocksAt p (ls ++ line :: lines) =
      ((blocksAt p ls).1, (blocksAt p ls).2 ++ (blocksAt p (line :: lines)).2) := by
  induction ls with
  | nil => simp only [List.nil_append, blocksAt, hline, if_true]
  | cons l ls ih =>
    simp only [List.cons_append, blocksAt, ih]
    split <;> rfl

/-- Blocks are read alike if what ends them is: the lines that go to the last block, and the blocks
that start there. -/
theorem map_blocksAt_append {α : Type} {p : Text → Bool} {xs ys : List Text}
    {f : Text × List Text → α}
    (hfront : ∀ line rest, f (line, rest ++ (blocksAt p xs).1) = f (line, rest ++ (blocksAt p ys).1))
    (hblocks : (blocksAt p xs).2.map f = (blocksAt p ys).2.map f) (ls : List Text) :
    (blocksAt p (ls ++ xs)).2.map f = (blocksAt p (ls ++ ys)).2.map f := by
  suffices h : ((blocksAt p (ls ++ xs)).1 = (blocksAt p (ls ++ ys)).1 ∨
        ∃ front, (blocksAt p (ls ++ xs)).1 = front ++ (blocksAt p xs).1 ∧
          (blocksAt p (ls ++ ys)).1 = front ++ (blocksAt p ys).1) ∧
      (blocksAt p (ls ++ xs)).2.map f = (blocksAt p (ls ++ ys)).2.map f from h.2
  induction ls with
  | nil => exact ⟨.inr ⟨[], rfl, rfl⟩, hblocks⟩
  | cons line ls ih =>
    obtain ⟨hends, hmap⟩ := ih
    cases hp : p line with
    | true =>
      simp only [List.cons_append, blocksAt, hp, if_true, List.map_cons, hmap]
      refine ⟨.inl trivial, ?_⟩
      rcases hends with hends | ⟨front, hx, hy⟩
      · rw [hends]
      · rw [hx, hy, hfront]
    | false =>
      simp only [List.cons_append, blocksAt, hp, Bool.false_eq_true, if_false]
      refine ⟨?_, hmap⟩
      rcases hends with hends | ⟨front, hx, hy⟩
      · exact .inl (congrArg (line :: ·) hends)
      · exact .inr ⟨line :: front, congrArg (line :: ·) hx, congrArg (line :: ·) hy⟩

/-- The lines of a block start no other one. -/
theorem of_mem_blocksAt {p : Text → Bool} (ls : List Text) :
    (∀ l ∈ (blocksAt p ls).1, l ∈ ls ∧ p l = false) ∧
      ∀ b ∈ (blocksAt p ls).2, ∀ l ∈ b.2, l ∈ ls ∧ p l = false := by
  induction ls with
  | nil => exact ⟨List.forall_mem_nil _, List.forall_mem_nil _⟩
  | cons line ls ih =>
    have hfront : ∀ l ∈ (blocksAt p ls).1, l ∈ line :: ls ∧ p l = false := fun l hl =>
      ⟨List.mem_cons_of_mem line (ih.1 l hl).1, (ih.1 l hl).2⟩
    have hblocks : ∀ b ∈ (blocksAt p ls).2, ∀ l ∈ b.2, l ∈ line :: ls ∧ p l = false :=
      fun b hb l hl => ⟨List.mem_cons_of_mem line (ih.2 b hb l hl).1, (ih.2 b hb l hl).2⟩
    cases hp : p line with
    | true =>
      simp only [blocksAt, hp, if_true]
      exact ⟨List.forall_mem_nil _, List.forall_mem_cons.2 ⟨hfront, hblocks⟩⟩
    | false =>
      simp only [blocksAt, hp, Bool.false_eq_true, if_false]
      exact ⟨List.forall_mem_cons.2 ⟨⟨List.mem_cons_self, hp⟩, hfront⟩, hblocks⟩

/-- The scenarios of the lines that open one, each with the lines up to the next. -/
def ofBlocks (k : Keywords) (ls : List Text) : List Scenario :=
  (blocksAt (k.opens .scenario) ls).2.map fun (line, rest) =>
    ofLines k (k.withoutKeyword .scenario line) rest

theorem listOfLines_eq (k : Keywords) (ls : List Text) :
    listOfLines k ls =
      if ofBlocks k ls = [] then if ls.all Text.blank then [] else [ofLines k [] ls]
      else ofBlocks k ls := by
  rw [listOfLines, ofBlocks]
  split
  · next h => rw [h, List.map_nil, if_pos rfl]
  · next h => rw [if_neg (mt List.map_eq_nil_iff.1 h)]

section

variable {k : Keywords}

theorem ofBlocks_append (ls : List Text) {line : Text} (hline : k.opens .scenario line = true)
    (lines : List Text) :
    ofBlocks k (ls ++ line :: lines) = ofBlocks k ls ++ ofBlocks k (line :: lines) := by
  rw [ofBlocks, blocksAt_append_block ls hline, List.map_append]
  rfl

/-- Lines in front of the first scenario are in no scenario. -/
theorem listOfLines_append {own : List Text} (hown : ∀ l ∈ own, k.opens .scenario l = false)
    {line : Text} (hline : k.opens .scenario line = true) (lines : List Text) :
    listOfLines k (own ++ line :: lines) = ofBlocks k (line :: lines) := by
  have hblocks : ofBlocks k (own ++ line :: lines) = ofBlocks k (line :: lines) := by
    rw [ofBlocks, blocksAt_append hown, ofBlocks]
  have hnil : ofBlocks k (line :: lines) ≠ [] := by
    rw [ofBlocks]
    simp only [blocksAt, hline, if_true, List.map_cons]
    exact List.cons_ne_nil _ _
  rw [listOfLines_eq, hblocks, if_neg hnil]

theorem ofBlocks_eq_nil_iff {ls : List Text} :
    ofBlocks k ls = [] ↔ ∀ l ∈ ls, k.opens .scenario l = false := by
  rw [ofBlocks, List.map_eq_nil_iff]
  induction ls with
  | nil => exact iff_of_true rfl (List.forall_mem_nil _)
  | cons line ls ih =>
    rw [List.forall_mem_cons, ← ih, blocksAt]
    cases hline : k.opens .scenario line <;> simp

/-- Lines that open no scenario are in none where a line behind them opens one. -/
theorem listOfLines_append_of_opens {own : List Text} (hown : ∀ l ∈ own, k.opens .scenario l = false)
    {lines : List Text} (hlines : ∃ l ∈ lines, k.opens .scenario l = true) :
    listOfLines k (own ++ lines) = listOfLines k lines := by
  have hne : ofBlocks k lines ≠ [] := by
    rw [Ne, ofBlocks_eq_nil_iff]
    intro hnone
    obtain ⟨l, hl, hopens⟩ := hlines
    rw [hnone l hl] at hopens
    exact absurd hopens nofun
  have hblocks : ofBlocks k (own ++ lines) = ofBlocks k lines := by
    rw [ofBlocks, blocksAt_append hown, ofBlocks]
  rw [listOfLines_eq, listOfLines_eq, hblocks, if_neg hne, if_neg hne]

/-- Every scenario is read from lines of the story that open none. -/
theorem exists_of_mem_listOfLines {lines : List Text} {s : Scenario}
    (hs : s ∈ listOfLines k lines) :
    ∃ title own, s = ofLines k title own ∧ ∀ l ∈ own, l ∈ lines ∧ k.opens .scenario l = false := by
  rw [listOfLines_eq] at hs
  split at hs
  · next hnil =>
    split at hs
    · cases hs
    · obtain rfl := List.mem_singleton.1 hs
      refine ⟨[], lines, rfl, fun l hl => ?_⟩
      -- Without a block all lines are in front of the first one.
      have hall := flatten_blocksAt (k.opens .scenario) lines
      rw [List.map_eq_nil_iff.1 hnil, List.flatMap_nil, List.append_nil] at hall
      rw [← hall] at hl
      exact (of_mem_blocksAt lines).1 l hl
  · obtain ⟨block, hblock, rfl⟩ := List.mem_map.1 hs
    exact ⟨_, block.2, rfl, (of_mem_blocksAt lines).2 block hblock⟩

end

/-! ### Drafts -/

namespace Draft

/-- A draft with more lines added. -/
def addLines (k : Keywords) (d : Draft) (lines : List Text) : Draft := lines.foldl (addLine k) d

variable {k : Keywords}

@[simp] theorem addLines_nil (d : Draft) : d.addLines k [] = d := rfl

@[simp] theorem addLines_cons (d : Draft) (line : Text) (lines : List Text) :
    d.addLines k (line :: lines) = (d.addLine k line).addLines k lines := rfl

theorem addLines_append (d : Draft) (ls ms : List Text) :
    d.addLines k (ls ++ ms) = (d.addLines k ls).addLines k ms :=
  List.foldl_append

/-- Lines that open no part of a scenario go to the open part. -/
theorem addLines_of_opensWithinScenario {d : Draft} {lines : List Text}
    (h : ∀ l ∈ lines, k.opensWithinScenario l = false) :
    d.addLines k lines = { d with lines := d.lines ++ lines } := by
  induction lines generalizing d with
  | nil => rw [addLines_nil, List.append_nil]
  | cons line lines ih =>
    obtain ⟨hline, hlines⟩ := List.forall_mem_cons.1 h
    have hadd : d.addLine k line = { d with lines := d.lines ++ [line] } := by
      rw [addLine]
      by_cases hd : d.part = .examples
      · rw [if_pos hd]
      · rw [if_neg hd]
        cases ho : k.opener? line with
        | none => rfl
        | some o =>
          rw [Keywords.opensWithinScenario, ho] at hline
          cases o <;> first | rfl | cases hline
    rw [addLines_cons, hadd, ih hlines, List.append_assoc, List.singleton_append]

theorem addLines_of_opener?_eq_none {d : Draft} {lines : List Text}
    (h : ∀ l ∈ lines, k.opener? l = none) :
    d.addLines k lines = { d with lines := d.lines ++ lines } := by
  refine addLines_of_opensWithinScenario fun l hl => ?_
  rw [Keywords.opensWithinScenario, h l hl]
  rfl

/-- All lines go to the examples once they are open. -/
theorem addLines_of_examples {d : Draft} (hd : d.part = .examples) (lines : List Text) :
    d.addLines k lines = { d with lines := d.lines ++ lines } := by
  induction lines generalizing d with
  | nil => rw [addLines_nil, List.append_nil]
  | cons line lines ih =>
    have hadd : d.addLine k line = { d with lines := d.lines ++ [line] } := by
      simp only [addLine, if_pos hd]
    rw [addLines_cons, hadd, ih (d := { d with lines := d.lines ++ [line] }) hd, List.append_assoc,
      List.singleton_append]

theorem addLine_step {d : Draft} (hd : d.part ≠ .examples) {line : Text}
    (h : k.opener? line = some .step) :
    d.addLine k line = d.turnTo .step (Text.trimStart line) := by
  simp only [addLine, if_neg hd, h]

theorem addLine_givenStories {d : Draft} (hd : d.part ≠ .examples) {line : Text}
    (h : k.opener? line = some .givenStories) :
    d.addLine k line = d.turnTo .givenStories (k.withoutKeyword .givenStories line) := by
  simp only [addLine, if_neg hd, h]

theorem addLine_examples {d : Draft} (hd : d.part ≠ .examples) {line : Text}
    (h : k.opener? line = some .examples) :
    d.addLine k line = d.turnTo .examples (k.withoutKeyword .examples line) := by
  simp only [addLine, if_neg hd, h]

/-! ### What lines add -/

/-- Lines add `f` when they do so to the scenario of every draft in which no examples are open, and
open none. -/
structure Adds (k : Keywords) (lines : List Text) (f : Scenario → Scenario) : Prop where
  part : ∀ d : Draft, d.part ≠ .examples → (d.addLines k lines).part ≠ .examples
  close : ∀ d : Draft, d.part ≠ .examples → (d.addLines k lines).close = f d.close

theorem adds_nil {f : Scenario → Scenario} (hf : ∀ s, f s = s) : Adds k [] f :=
  ⟨fun _ h => h, fun d _ => (hf d.close).symm⟩

theorem Adds.append {ls ms : List Text} {f g : Scenario → Scenario} (hl : Adds k ls f)
    (hm : Adds k ms g) : Adds k (ls ++ ms) (g ∘ f) where
  part d hd := by
    rw [addLines_append]
    exact hm.part _ (hl.part d hd)
  close d hd := by
    rw [addLines_append, hm.close _ (hl.part d hd), hl.close d hd]
    rfl

/-- A step and the lines after it that open no part of a scenario add one step. -/
theorem adds_step {line : Text} {lines : List Text} (hline : k.opener? line = some .step)
    (hlines : ∀ l ∈ lines, k.opensWithinScenario l = false) :
    Adds k (line :: lines) fun s =>
      { s with steps :=
          s.steps ++ [Text.trim (Text.joinLines (Text.trimStart line :: lines))] } where
  part d hd := by
    rw [addLines_cons, addLine_step hd hline, addLines_of_opensWithinScenario hlines]
    exact nofun
  close d hd := by
    rw [addLines_cons, addLine_step hd hline, addLines_of_opensWithinScenario hlines]
    rfl

theorem adds_givenStories {line : Text} {lines : List Text}
    (hline : k.opener? line = some .givenStories)
    (hlines : ∀ l ∈ lines, k.opensWithinScenario l = false) :
    Adds k (line :: lines) fun s =>
      { s with givenStories :=
          s.givenStories ++ pathsOf (k.withoutKeyword .givenStories line :: lines) } where
  part d hd := by
    rw [addLines_cons, addLine_givenStories hd hline, addLines_of_opensWithinScenario hlines]
    exact nofun
  close d hd := by
    rw [addLines_cons, addLine_givenStories hd hline, addLines_of_opensWithinScenario hlines]
    rfl

/-- A line that opens examples takes all lines after it. -/
theorem close_addLines_examples {d : Draft} (hd : d.part ≠ .examples) {line : Text}
    (hline : k.opener? line = some .examples) (lines : List Text) :
    (d.addLines k (line :: lines)).close =
      { d.close with
        examples := .ofText (Text.joinLines (k.withoutKeyword .examples line :: lines)) } := by
  rw [addLines_cons, addLine_examples hd hline, addLines_of_examples rfl]
  rfl

/-! ### Texts of steps -/

/-- A step that its text adds: the first line opens a step, and no other one opens anything within a
story but a narrative, which is none within a scenario. -/
structure StepText (k : Keywords) (step : Text) : Prop where
  trim : Text.trim step = step
  lines : ∃ first later, Text.splitAt '\n' step = first :: later ∧ k.opener? first = some .step ∧
    ∀ l ∈ later, k.opener? l = none ∨ k.opener? l = some .narrative

theorem StepText.adds {step : Text} (h : StepText k step) :
    Adds k (Text.splitAt '\n' step) fun s => { s with steps := s.steps ++ [step] } := by
  obtain ⟨first, later, hlines, hfirst, hlater⟩ := h.lines
  have hjoin : Text.joinLines (first :: later) = step := by
    rw [← hlines, Text.joinLines_splitAt]
  have hwithin : ∀ l ∈ later, k.opensWithinScenario l = false := by
    intro l hl
    rw [Keywords.opensWithinScenario]
    rcases hlater l hl with ho | ho <;> rw [ho] <;> rfl
  have htrim : Text.trimStart first = first := by
    obtain ⟨t, ht⟩ := Text.exists_joinLines_cons first later
    have := Text.trimStart_of_trim h.trim
    rw [← hjoin, ht] at this
    exact Text.trimStart_of_append this
  have hadds := adds_step hfirst hwithin
  rwa [htrim, hjoin, h.trim, ← hlines] at hadds

theorem adds_steps {steps : List Text} (h : ∀ step ∈ steps, StepText k step) :
    Adds k (steps.flatMap (Text.splitAt '\n')) fun s => { s with steps := s.steps ++ steps } := by
  induction steps with
  | nil => exact adds_nil fun s => by rw [List.append_nil]
  | cons step steps ih =>
    obtain ⟨hstep, hsteps⟩ := List.forall_mem_cons.1 h
    have hadds := hstep.adds.append (ih hsteps)
    rw [List.flatMap_cons]
    simpa only [Function.comp_def, List.append_assoc, List.singleton_append] using hadds

end Draft

theorem ofLines_eq (k : Keywords) (title : Text) (lines : List Text) :
    ofLines k title lines = (Draft.addLines k { part := .title, lines := [title] } lines).close :=
  rfl

end Scenario

end PlainStory
