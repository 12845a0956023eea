import PlainStory.Proofs.Decimal.Integer
import PlainStory.Proofs.Report.Erasing
import PlainStory.Proofs.Report.Indentation
import PlainStory.Proofs.Text.Lines
import PlainStory.Proofs.Text.Spacing
import PlainStory.Report.Coloring
import PlainStory.Report.Reporter

/-!
# Coloured reports

What coloring does to a report: it paints, and does nothing else. A coloured report and a plain one
that receive the same signals write a painted text and its plain one at every write, so that deleting
the style sequences from what the one has written gives what the other has written. The same holds
where a summary stands in front of both, whatever it shows as the time taken.
-/

namespace PlainStory

open Style (Painting)

/-! ### What signals show -/

namespace Event

/-- The texts that an event shows. -/
def texts : Event → List Text
  | beforeStory s _ =>
    [s.path, s.description, s.narrative.inOrderTo, s.narrative.asA, s.narrative.iWantTo,
      s.narrative.soThat]
  | beforeScenario title => [title]
  | givenStories paths => paths
  | beforeExamples _ table => table.headers ++ table.rows.flatMap Row.values
  | exampleRow row => row.columns ++ row.values
  | outcome (.failed s e) => [s, e.message]
  | outcome o => [o.step]
  | afterStory _ | afterScenario | afterExamples => []

end Event

def Signal.texts : Signal → List Text
  | event e => e.texts
  | text s => [s]

/-! ### Lines of events -/

theorem Table.not_mem_render {t : Table} {c : Char} (hbar : c ≠ '|') (hbreak : c ≠ '\n')
    (h : ∀ s ∈ t.headers ++ t.rows.flatMap Row.values, c ∉ s) : c ∉ t.render := by
  have hcells : ∀ cells : List Text, (∀ s ∈ cells, c ∉ s) → c ∉ renderCells cells := by
    intro cells hcells
    rw [renderCells]
    refine List.not_mem_append (fun hc => ?_) (by simp [hbar, hbreak])
    obtain ⟨s, hs, hc⟩ := List.mem_flatMap.1 hc
    rcases List.mem_cons.1 hc with hc | hc
    · exact hbar hc
    · exact hcells s hs hc
  obtain ⟨hheaders, hrows⟩ := List.forall_mem_append.1 h
  refine List.not_mem_append (hcells _ hheaders) fun hc => ?_
  obtain ⟨r, hr, hc⟩ := List.mem_flatMap.1 hc
  exact hcells r.values (fun s hs => hrows s (List.mem_flatMap.2 ⟨r, hr, hs⟩)) hc

namespace Event

variable {k : Keywords}

/-- The lines behind the title of a story, which are never painted. -/
def detailLines (k : Keywords) (s : Story) : List Text :=
  let clause := fun w c => "    " ++ k.token w ++ " " ++ c
  let n := s.narrative
  let clauses :=
    if n.isWithBenefit then
      [clause .asA n.asA, clause .iWantTo n.iWantTo, clause .soThat n.soThat]
    else
      [clause .inOrderTo n.inOrderTo, clause .asA n.asA, clause .iWantTo n.iWantTo]
  ((Text.lines s.description).filter (!Text.blank ·)).map (fun l => "  " ++ Text.trim l) ++
    (if n.isEmpty then [] else ("  " ++ k.token .narrative) :: clauses)

def titleLine (s : Story) (embedded : Bool) : Text :=
  let kind : Text := if embedded then "Given story" else "Story"
  kind ++ ": " ++ s.path

theorem storyLines_eq (k : Keywords) (painted : Bool) (s : Story) (embedded : Bool) :
    storyLines k painted s embedded =
      Style.bold.paint painted (Style.header.paint painted (titleLine s embedded)) ::
        detailLines k s := rfl

theorem titleLine_ne_nil (s : Story) (embedded : Bool) : titleLine s embedded ≠ [] := by
  cases embedded <;> exact List.cons_ne_nil _ _

theorem escape_not_mem_titleLine {s : Story} (h : Style.escape ∉ s.path) (embedded : Bool) :
    Style.escape ∉ titleLine s embedded := by
  refine List.not_mem_append (List.not_mem_append ?_ (by decide)) h
  cases embedded <;> decide

theorem escape_not_mem_detailLines (hk : ∀ w, Style.escape ∉ k.token w) {s : Story}
    (h : ∀ t ∈ (beforeStory s false).texts, Style.escape ∉ t) :
    ∀ l ∈ detailLines k s, Style.escape ∉ l := by
  simp only [texts, List.forall_mem_cons] at h
  obtain ⟨-, hdescription, hinOrderTo, hasA, hiWantTo, hsoThat, -⟩ := h
  have hclause : ∀ w {c : Text}, Style.escape ∉ c →
      Style.escape ∉ ("    " ++ k.token w ++ " " ++ c : Text) := fun w _ hc =>
    List.not_mem_append
      (List.not_mem_append (List.not_mem_append (by decide) (hk w)) (by decide)) hc
  refine List.forall_mem_append.2 ⟨fun l hl => ?_, ?_⟩
  · obtain ⟨line, hline, rfl⟩ := List.mem_map.1 hl
    refine List.not_mem_append (by decide) fun hmem => hdescription ?_
    exact Text.mem_of_mem_lines line (List.mem_filter.1 hline).1 _
      (Text.mem_of_mem_trimStart (Text.mem_of_mem_trimEnd hmem))
  · split
    · exact List.forall_mem_nil _
    · refine List.forall_mem_cons.2 ⟨List.not_mem_append (by decide) (hk _), ?_⟩
      split <;> simp only [List.forall_mem_cons]
      · exact ⟨hclause _ hasA, hclause _ hiWantTo, hclause _ hsoThat, List.forall_mem_nil _⟩
      · exact ⟨hclause _ hinOrderTo, hclause _ hasA, hclause _ hiWantTo, List.forall_mem_nil _⟩

theorem painting_storyLines (hk : ∀ w, Style.escape ∉ k.token w) {s : Story} {embedded : Bool}
    (h : ∀ t ∈ (beforeStory s embedded).texts, Style.escape ∉ t) :
    List.Forall₂ Painting (storyLines k true s embedded) (storyLines k false s embedded) := by
  have htitle := Painting.paint_plain .header
    (escape_not_mem_titleLine (h s.path List.mem_cons_self) embedded) (titleLine_ne_nil s embedded)
  rw [storyLines_eq, storyLines_eq]
  exact .cons (htitle.paint .bold (titleLine_ne_nil s embedded))
    (Painting.plain_lines (escape_not_mem_detailLines hk h))

/-- A line about a step: a mark, the text of the step, and a word in brackets. -/
theorem painting_stepLine (style : Style) {mark s word : Text} (hmark : Style.escape ∉ mark)
    (hs : Style.escape ∉ s) (hword : Style.escape ∉ word) (hne : mark ≠ []) :
    Painting (style.paint true (mark ++ s ++ " (" ++ word ++ ")"))
      (style.paint false (mark ++ s ++ " (" ++ word ++ ")")) := by
  refine Painting.paint_plain style ?_ (by simp [hne])
  exact List.not_mem_append (List.not_mem_append
    (List.not_mem_append (List.not_mem_append hmark hs) (by decide)) hword) (by decide)

theorem painting_outcomeLines (hk : ∀ w, Style.escape ∉ k.token w) {o : StepOutcome}
    (h : ∀ t ∈ (outcome o).texts, Style.escape ∉ t) :
    List.Forall₂ Painting (outcomeLines k true o) (outcomeLines k false o) := by
  have hstep : Style.escape ∉ o.step := by cases o <;> exact h _ List.mem_cons_self
  cases o with
  | successful s =>
    exact .cons (Painting.paint_plain _ (List.not_mem_append (by decide) hstep) (List.cons_ne_nil _ _)) .nil
  | failed s e =>
    have hmessage : Style.escape ∉ e.message := h _ (List.mem_cons_of_mem _ List.mem_cons_self)
    refine .cons (painting_stepLine _ (by decide) hstep (hk _) (by decide)) (.cons ?_ .nil)
    exact Painting.paint_plain _ (List.not_mem_append (by decide) hmessage) (List.cons_ne_nil _ _)
  | pending s => exact .cons (painting_stepLine _ (by decide) hstep (hk _) (by decide)) .nil
  | notPerformed s => exact .cons (painting_stepLine _ (by decide) hstep (hk _) (by decide)) .nil
  | comment s => exact Painting.plain_lines (List.forall_mem_singleton.2 hstep)

/-- The lines of an event are painted where they are coloured, and no line is there only in color. -/
theorem painting_lines (hk : ∀ w, Style.escape ∉ k.token w) {e : Event}
    (h : ∀ t ∈ e.texts, Style.escape ∉ t) :
    List.Forall₂ Painting (e.lines k true) (e.lines k false) := by
  cases e with
  | beforeStory s embedded => exact painting_storyLines hk h
  | beforeScenario title =>
    have htitle : Style.escape ∉ k.token .scenario ++ " " ++ title :=
      List.not_mem_append (List.not_mem_append (hk .scenario) (by decide))
        (h title List.mem_cons_self)
    exact .cons (Painting.paint_plain .bold htitle (by simp)) .nil
  | givenStories paths =>
    refine Painting.plain_lines (List.forall_mem_singleton.2 ?_)
    exact List.not_mem_append (List.not_mem_append (hk _) (by decide))
      (Text.not_mem_join (by decide) h)
  | beforeExamples steps table =>
    refine Painting.plain_lines (List.forall_mem_cons.2 ⟨hk _, fun l hl => ?_⟩)
    obtain ⟨line, hline, rfl⟩ := List.mem_map.1 hl
    refine List.not_mem_append (by decide) fun hmem => ?_
    exact Table.not_mem_render (by decide) (by decide) h (Text.mem_of_mem_lines line hline _ hmem)
  | exampleRow row =>
    refine .cons (Painting.paint_plain .header ?_ (by simp)) .nil
    refine List.not_mem_append (List.not_mem_append (List.not_mem_append (hk _) (by decide)) ?_)
      (by decide)
    refine Text.not_mem_join (by decide) fun t ht => ?_
    obtain ⟨cell, hcell, rfl⟩ := List.mem_map.1 ht
    obtain ⟨hcolumns, hvalues⟩ := List.forall_mem_append.1 h
    exact List.not_mem_append
      (List.not_mem_append (hcolumns cell.1 (List.mem_map_of_mem hcell)) (by decide))
      (hvalues cell.2 (List.mem_map_of_mem hcell))
  | outcome o => exact painting_outcomeLines hk h
  | afterStory embedded => exact .nil
  | afterScenario => exact .nil
  | afterExamples => exact .nil

end Event

/-! ### Writing side by side -/

/-- An output that was written to as another one was, with paint. -/
structure Output.Paints (o o' : Output) : Prop where
  failing : o.failing = o'.failing
  writes : o.writes = o'.writes
  text : Painting o.text o'.text

namespace Output.Paints

variable {o o' : Output} {p q : Text}

theorem write (h : o.Paints o') (hp : Painting p q) :
    (o.write p).1.Paints (o'.write q).1 ∧ (o.write p).2 = (o'.write q).2 := by
  rw [Output.write, Output.write]
  by_cases hq : q = []
  · rw [if_pos hq, if_pos (hp.eq_nil_iff.2 hq)]
    exact ⟨h, rfl⟩
  · rw [if_neg hq, if_neg (mt hp.eq_nil_iff.1 hq), h.failing, h.writes]
    split
    · exact ⟨⟨rfl, rfl, h.text⟩, rfl⟩
    · refine ⟨⟨h.failing, congrArg (· + 1) h.writes, ?_⟩, rfl⟩
      rw [Output.text_push, Output.text_push]
      exact h.text.append hp

theorem writeLine (h : o.Paints o') (hp : Painting p q) :
    (o.writeLine p).1.Paints (o'.writeLine q).1 ∧ (o.writeLine p).2 = (o'.writeLine q).2 := by
  obtain ⟨hline, hdone⟩ := h.write hp
  rw [Output.writeLine, Output.writeLine]
  simp only [hdone]
  split
  · exact hline.write (.plain (by decide))
  · exact ⟨hline, rfl⟩

theorem writeLines {ps qs : List Text} (h : o.Paints o') (hps : List.Forall₂ Painting ps qs) :
    (o.writeLines ps).Paints (o'.writeLines qs) := by
  induction hps generalizing o o' with
  | nil => exact h
  | cons hp _ ih =>
    obtain ⟨hline, hdone⟩ := h.writeLine hp
    rw [Output.writeLines, Output.writeLines]
    simp only [hdone]
    split
    · exact ih hline
    · exact hline

end Output.Paints

/-- A coloured report that is as far as a plain one with the same keywords. -/
structure Console.Paints (k : Keywords) (c c' : Console) : Prop where
  painted : c.painted = true ∧ c'.painted = false
  keywords : c.keywords = k ∧ c'.keywords = k
  indent : c.indent = c'.indent
  output : c.output.Paints c'.output

namespace Console.Paints

variable {k : Keywords} {c c' : Console}

theorem writeIndented {ps qs : List Text} (h : c.Paints k c') (hps : List.Forall₂ Painting ps qs) :
    (c.writeIndented ps).Paints k (c'.writeIndented qs) := by
  have hindented : List.Forall₂ Painting (ps.map (List.replicate c.indent ' ' ++ ·))
      (qs.map (List.replicate c'.indent ' ' ++ ·)) := by
    rw [h.indent, List.forall₂_map_left_iff, List.forall₂_map_right_iff]
    refine hps.imp fun p q hp => Painting.append (.plain fun hmem => ?_) hp
    exact absurd (List.eq_of_mem_replicate hmem) (by decide)
  exact ⟨h.painted, h.keywords, h.indent, h.output.writeLines hindented⟩

theorem indentedBy (h : c.Paints k c') (n : Nat) :
    ({ c with indent := n } : Console).Paints k { c' with indent := n } :=
  ⟨h.painted, h.keywords, rfl, h.output⟩

theorem receive_event (h : c.Paints k c') (hk : ∀ w, Style.escape ∉ k.token w) {e : Event}
    (he : ∀ s ∈ e.texts, Style.escape ∉ s) :
    (c.receive (.event e)).Paints k (c'.receive (.event e)) := by
  have hlines : List.Forall₂ Painting (e.lines c.keywords c.painted)
      (e.lines c'.keywords c'.painted) := by
    rw [h.keywords.1, h.keywords.2, h.painted.1, h.painted.2]
    exact Event.painting_lines hk he
  cases ho : e.isOpening with
  | true =>
    rw [receive_opening ho, receive_opening ho, h.indent]
    exact (h.writeIndented hlines).indentedBy _
  | false =>
    rw [receive_not_opening ho, receive_not_opening ho, h.indent]
    exact (h.indentedBy _).writeIndented hlines

/-- A text that comes painted is written line by line like the plain one. -/
theorem receive_text {p q : Text} (h : c.Paints k c')
    (hlines : List.Forall₂ Painting (Text.lines p) (Text.lines q)) :
    (c.receive (.text p)).Paints k (c'.receive (.text q)) :=
  ⟨h.painted, h.keywords, h.indent, h.output.writeLines hlines⟩

theorem receive (h : c.Paints k c') (hk : ∀ w, Style.escape ∉ k.token w) {i : Signal}
    (hi : ∀ s ∈ i.texts, Style.escape ∉ s) : (c.receive i).Paints k (c'.receive i) := by
  cases i with
  | event e => exact h.receive_event hk hi
  | text s =>
    refine h.receive_text (Painting.plain_lines fun l hl hmem => ?_)
    exact hi s List.mem_cons_self (Text.mem_of_mem_lines l hl _ hmem)

theorem receiveAll (h : c.Paints k c') (hk : ∀ w, Style.escape ∉ k.token w) {signals : List Signal}
    (hsignals : ∀ i ∈ signals, ∀ s ∈ i.texts, Style.escape ∉ s) :
    (c.receiveAll signals).Paints k (c'.receiveAll signals) := by
  induction signals generalizing c c' with
  | nil => exact h
  | cons i signals ih =>
    obtain ⟨hi, hsignals⟩ := List.forall_mem_cons.1 hsignals
    exact ih (h.receive hk hi) hsignals

end Console.Paints

/-! ### Summaries -/

/-- Whether a character neither begins a style sequence nor belongs to a line break. -/
def Text.fitsLine (c : Char) : Bool := c ≠ Style.escape && c ≠ '\n' && c ≠ '\r'

/-- A text that can be shown within a line. -/
def Text.IsLabel (s : Text) : Prop := s.all fitsLine = true

instance (s : Text) : Decidable (Text.IsLabel s) := inferInstanceAs (Decidable (_ = true))

theorem Text.IsLabel.append {s t : Text} (hs : s.IsLabel) (ht : t.IsLabel) : (s ++ t).IsLabel := by
  rw [IsLabel, List.all_append, hs, ht, Bool.and_true]

theorem Text.IsLabel.not_mem {s : Text} (hs : s.IsLabel) {c : Char} (hc : fitsLine c = false) :
    c ∉ s := fun hmem =>
  absurd (hc.symm.trans (List.all_eq_true.1 hs c hmem)) nofun

theorem Text.isLabel_ofNat (n : Nat) : (ofNat n).IsLabel := by
  refine List.all_eq_true.2 fun c hmem => ?_
  have hdigit := (Decimal.isDigits_ofNat n).isDigit c hmem
  have hne : ∀ d : Char, d.isDigit = false → c ≠ d := by
    rintro d hd rfl
    exact absurd (hd.symm.trans hdigit) nofun
  simp [fitsLine, hne Style.escape (by decide), hne '\n' (by decide), hne '\r' (by decide)]

/-- A label with paint on it. -/
structure Style.PaintedLabel (p q : Text) : Prop where
  painting : Painting p q
  isLabel : q.IsLabel

namespace Style.PaintedLabel

variable {p q p' q' : Text}

theorem plain {s : Text} (hs : s.IsLabel) : PaintedLabel s s :=
  ⟨.plain (hs.not_mem (by decide)), hs⟩

theorem append (h : PaintedLabel p q) (h' : PaintedLabel p' q') : PaintedLabel (p ++ p') (q ++ q') :=
  ⟨h.painting.append h'.painting, h.isLabel.append h'.isLabel⟩

theorem painted (h : PaintedLabel p q) (hq : q ≠ []) (painted : Bool) (style : Style) :
    PaintedLabel (style.paint painted p) q :=
  ⟨h.painting.painted hq painted style, h.isLabel⟩

theorem join {ps qs : List Text} {sep : Text} (hsep : sep.IsLabel)
    (h : List.Forall₂ PaintedLabel ps qs) : PaintedLabel (Text.join sep ps) (Text.join sep qs) := by
  induction h with
  | nil => exact plain rfl
  | cons h hmore ih =>
    cases hmore with
    | nil => simpa [Text.join] using h
    | cons =>
      rw [Text.join_cons (List.cons_ne_nil _ _), Text.join_cons (List.cons_ne_nil _ _)]
      exact (h.append (plain hsep)).append ih

/-- A label is within a line, painted or not. -/
theorem line_breaks (h : PaintedLabel p q) : '\n' ∉ p ∧ '\r' ∉ p :=
  ⟨h.painting.not_mem (.inl rfl) (h.isLabel.not_mem (by decide)),
    h.painting.not_mem (.inr rfl) (h.isLabel.not_mem (by decide))⟩

end Style.PaintedLabel

namespace Stats

open Style (PaintedLabel)

/-- The numbers that are shown. -/
def parts (painted : Bool) (s : Stats) : List Text :=
  let part := fun (n : Nat) (word : Text) (style : Text → Text) =>
    if n = 0 then [] else [style (Text.ofNat n ++ " " ++ word)]
  let skipped := Style.skipped.paint painted
  part s.passed "passed" (Style.ok.paint painted) ++
    part s.failed "failed" (Style.err.paint painted) ++
    part s.pending "pending" skipped ++ part s.notPerformed "not performed" skipped ++
    part s.comments "ignorable" id

theorem render_eq (painted : Bool) (s : Stats) : s.render painted =
    if s.parts painted = [] then [] else (" (" ++ Text.join ", " (s.parts painted) ++ ")" : Text) := rfl

theorem paintedLabel_part (n : Nat) {word : Text} (hword : word.IsLabel) {paint : Text → Text}
    (hpaint : ∀ s : Text, s.IsLabel → s ≠ [] → PaintedLabel (paint s) s) :
    List.Forall₂ PaintedLabel (if n = 0 then [] else [paint (Text.ofNat n ++ " " ++ word)])
      (if n = 0 then [] else [Text.ofNat n ++ " " ++ word]) := by
  split
  · exact .nil
  · refine .cons (hpaint _ ?_ (by simp)) .nil
    exact ((Text.isLabel_ofNat n).append (by decide)).append hword

theorem paintedLabel_parts (painted : Bool) (s : Stats) :
    List.Forall₂ PaintedLabel (s.parts painted) (s.parts false) := by
  have hpaint : ∀ (style : Style) (t : Text), t.IsLabel → t ≠ [] →
      PaintedLabel (style.paint painted t) t := fun style t ht hne =>
    (PaintedLabel.plain ht).painted hne painted style
  have hplain : ∀ t : Text, t.IsLabel → t ≠ [] → PaintedLabel (id t) t := fun t ht _ => .plain ht
  exact List.rel_append (List.rel_append (List.rel_append (List.rel_append
    (paintedLabel_part s.passed (by decide) (hpaint .ok))
    (paintedLabel_part s.failed (by decide) (hpaint .err)))
    (paintedLabel_part s.pending (by decide) (hpaint .skipped)))
    (paintedLabel_part s.notPerformed (by decide) (hpaint .skipped)))
    (paintedLabel_part s.comments (by decide) hplain)

theorem paintedLabel_render (painted : Bool) (s : Stats) :
    PaintedLabel (s.render painted) (s.render false) := by
  have hparts := s.paintedLabel_parts painted
  have hnil : s.parts painted = [] ↔ s.parts false = [] := by
    rw [← List.length_eq_zero_iff, hparts.length_eq, List.length_eq_zero_iff]
  rw [render_eq, render_eq]
  by_cases h : s.parts false = []
  · rw [if_pos h, if_pos (hnil.2 h)]
    exact .plain (by decide)
  · rw [if_neg h, if_neg (mt hnil.1 h)]
    have hopen : Text.IsLabel " (" := by decide
    have hsep : Text.IsLabel ", " := by decide
    have hclose : Text.IsLabel ")" := by decide
    exact ((PaintedLabel.plain hopen).append (.join hsep hparts)).append (.plain hclose)

end Stats

namespace Summary

open Style (PaintedLabel)

/-- A summary as it is shown with paint or without. -/
def withPaint (s : Summary) (painted : Bool) : Summary := { s with painted }

/-- A summary at a moment, with the time taken up to it. -/
def atTime (s : Summary) (elapsed : Text) : Summary := { s with elapsed }

/-- The lines of a summary. -/
def labels (s : Summary) : List Text :=
  let bold := Style.bold.paint s.painted
  let counted := fun (n : Nat) (one many : Text) =>
    bold (Text.ofNat n ++ " " ++ (if n = 1 then one else many))
  [bold (Style.header.paint s.painted "[Summary]"),
    counted s.stories "story" "stories",
    counted s.scenarios.total "scenario" "scenarios" ++ s.scenarios.render s.painted,
    counted s.steps.total "step" "steps" ++ s.steps.render s.painted,
    bold ("Took " ++ s.elapsed)]

theorem render_eq (s : Summary) : s.render = Text.joinLines s.labels := rfl

theorem paintedLabel_counted (painted : Bool) (n : Nat) (one many : Text) (hone : one.IsLabel)
    (hmany : many.IsLabel) :
    PaintedLabel (Style.bold.paint painted (Text.ofNat n ++ " " ++ (if n = 1 then one else many)))
      (Text.ofNat n ++ " " ++ (if n = 1 then one else many)) := by
  have hword : (if n = 1 then one else many).IsLabel := by split <;> assumption
  refine (PaintedLabel.plain ?_).painted (by simp) painted .bold
  exact ((Text.isLabel_ofNat n).append (by decide)).append hword

/-- The lines of a summary are painted where it is coloured. -/
theorem paintedLabel_labels (s : Summary) (helapsed : s.elapsed.IsLabel) (painted : Bool) :
    List.Forall₂ PaintedLabel (s.withPaint painted).labels (s.withPaint false).labels := by
  have htitle : Text.IsLabel "[Summary]" := by decide
  have hstories := paintedLabel_counted painted s.stories "story" "stories" (by decide) (by decide)
  have hscenarios := (paintedLabel_counted painted s.scenarios.total "scenario" "scenarios"
    (by decide) (by decide)).append (s.scenarios.paintedLabel_render painted)
  have hsteps := (paintedLabel_counted painted s.steps.total "step" "steps"
    (by decide) (by decide)).append (s.steps.paintedLabel_render painted)
  have htook : Text.IsLabel ("Took " ++ s.elapsed) := Text.IsLabel.append (by decide) helapsed
  exact .cons (((PaintedLabel.plain htitle).painted (by decide) painted .header).painted (by decide)
      painted .bold)
    (.cons hstories (.cons hscenarios (.cons hsteps
    (.cons ((PaintedLabel.plain htook).painted (List.cons_ne_nil _ _) painted .bold) .nil))))

theorem labels_ne_nil (s : Summary) : ∀ l ∈ s.labels, l ≠ [] := by
  have hcounted : ∀ (n : Nat) (one many : Text),
      Style.bold.paint s.painted (Text.ofNat n ++ " " ++ (if n = 1 then one else many)) ≠ [] :=
    fun n one many => Style.paint_ne_nil (by simp) _ _
  have hne := Style.paint_ne_nil (s := "[Summary]") (by decide) s.painted .header
  simp only [labels, List.forall_mem_cons]
  exact ⟨Style.paint_ne_nil hne _ _, hcounted _ _ _,
    List.append_ne_nil_of_left_ne_nil (hcounted _ _ _) _,
    List.append_ne_nil_of_left_ne_nil (hcounted _ _ _) _,
    Style.paint_ne_nil (List.cons_ne_nil _ _) _ _, List.forall_mem_nil _⟩

/-- A summary is written in the lines that it has, painted or not. -/
theorem painting_lines_render (s : Summary) (helapsed : s.elapsed.IsLabel) (painted : Bool) :
    List.Forall₂ Painting (Text.lines (s.withPaint painted).render)
      (Text.lines (s.withPaint false).render) := by
  have hlabels := s.paintedLabel_labels helapsed
  have hlines : ∀ painted : Bool,
      Text.lines (s.withPaint painted).render = (s.withPaint painted).labels := by
    intro painted
    have hbreaks := (hlabels painted).imp fun p q hp => And.intro hp.line_breaks hp
    rw [List.forall₂_and_left] at hbreaks
    rw [render_eq]
    exact Text.lines_joinLines_of_ne_nil hbreaks.1 (labels_ne_nil _)
  rw [hlines, hlines]
  exact (hlabels painted).imp fun p q hp => hp.painting

/-- Paint is not counted. -/
theorem track_withPaint (s : Summary) (painted : Bool) (e : Event) :
    (s.withPaint painted).track e = (s.track e).withPaint painted := by
  cases e with
  | afterScenario => cases hrunning : s.running <;> simp [track, withPaint, hrunning]
  | _ => rfl

theorem elapsed_track (s : Summary) (e : Event) : (s.track e).elapsed = s.elapsed := by
  cases e with
  | afterScenario => cases hrunning : s.running <;> simp [track, hrunning]
  | _ => rfl

theorem step_withPaint_fst (s : Summary) (painted : Bool) (i : Signal) :
    ((s.withPaint painted).step i).1 = (s.step i).1.withPaint painted := by
  cases i with
  | text t => rfl
  | event e => exact s.track_withPaint painted e

end Summary

/-! ### Whole reports -/

theorem Console.Paints.fresh (k : Keywords) (failing : List Nat) :
    ({ painted := true, keywords := k, output := { failing } } : Console).Paints k
      { painted := false, keywords := k, output := { failing } } :=
  ⟨⟨rfl, rfl⟩, ⟨rfl, rfl⟩, rfl, ⟨rfl, rfl, .plain List.not_mem_nil⟩⟩

/-- Behind a coloured summary and a plain one, a coloured report goes on as a plain one. -/
theorem Console.Paints.receiveAll_step {k : Keywords} {c c' : Console} (h : c.Paints k c')
    (hk : ∀ w, Style.escape ∉ k.token w) {i : Signal} (hi : ∀ s ∈ i.texts, Style.escape ∉ s)
    (s : Summary) (helapsed : s.elapsed.IsLabel) (painted : Bool) :
    (c.receiveAll ((s.withPaint painted).step i).2).Paints k
      (c'.receiveAll ((s.withPaint false).step i).2) := by
  cases i with
  | text t => exact h.receive hk hi
  | event e =>
    have hevent := h.receive hk hi
    have hlines := (s.track e).painting_lines_render (s.elapsed_track e ▸ helapsed) painted
    simp only [Summary.step, Summary.track_withPaint]
    split
    · exact hevent.receive_text hlines
    · exact hevent

namespace Reporter

/-- What is written by the report that a reporter is or stands in front of. -/
def outputText : Reporter → Text
  | console c => c.output.text
  | summary _ inner => inner.outputText
  | quiet _ inner => inner.outputText
  | recorder _ | each _ => []

/-- A reporter after a signal at a moment, at which a summary shows the given text as the time taken. -/
def receiveAt : Reporter → Text × Signal → Reporter
  | summary s inner, moment => (summary (s.atTime moment.1) inner).receive [moment.2]
  | r, moment => r.receive [moment.2]

theorem receiveAt_summary (s : Summary) (c : Console) (moment : Text × Signal) :
    (summary s (console c)).receiveAt moment =
      summary ((s.atTime moment.1).step moment.2).1
        (console (c.receiveAll ((s.atTime moment.1).step moment.2).2)) := by
  rw [receiveAt, receive]
  simp only [Signal.passThrough, List.append_nil, receive]

theorem exists_foldl_receiveAt {k : Keywords} (hk : ∀ w, Style.escape ∉ k.token w)
    {moments : List (Text × Signal)}
    (hmoments : ∀ m ∈ moments, m.1.IsLabel ∧ ∀ s ∈ m.2.texts, Style.escape ∉ s) (painted : Bool)
    (s : Summary) {c c' : Console} (h : c.Paints k c') :
    ∃ t : Summary, ∃ d d', d.Paints k d' ∧
      moments.foldl receiveAt (summary (s.withPaint painted) (console c)) =
        summary (t.withPaint painted) (console d) ∧
      moments.foldl receiveAt (summary (s.withPaint false) (console c')) =
        summary (t.withPaint false) (console d') := by
  induction moments generalizing s c c' with
  | nil => exact ⟨s, c, c', h, rfl, rfl⟩
  | cons m moments ih =>
    obtain ⟨hm, hmoments⟩ := List.forall_mem_cons.1 hmoments
    have hstep := h.receiveAll_step hk hm.2 (s.atTime m.1) hm.1 painted
    have hmoment : ∀ b, (s.withPaint b).atTime m.1 = (s.atTime m.1).withPaint b := fun _ => rfl
    rw [List.foldl_cons, List.foldl_cons, receiveAt_summary, receiveAt_summary, hmoment, hmoment,
      Summary.step_withPaint_fst, Summary.step_withPaint_fst]
    exact ih hmoments _ hstep

/-- Coloring changes only the paint. For keywords, signals and times taken without an escape, deleting
the style sequences from what a coloured report has written gives what a plain one has written of the
same signals, wherever writing failed; and so it is behind a summary, coloured or not, that shows the
same times. -/
theorem erase_outputText {k : Keywords} (hk : ∀ w, Style.escape ∉ k.token w) (failing : List Nat)
    (coloring : Coloring) {moments : List (Text × Signal)}
    (hmoments : ∀ m ∈ moments, m.1.IsLabel ∧ ∀ s ∈ m.2.texts, Style.escape ∉ s) :
    let report := fun c : Coloring =>
      console { painted := c.isPainted, keywords := k, indent := 0, output := { failing } }
    let summarized := fun c c' : Coloring => summary { painted := c.isPainted } (report c')
    Style.erase ((report .always).receive (moments.map Prod.snd)).outputText =
        ((report .never).receive (moments.map Prod.snd)).outputText ∧
      Style.erase (moments.foldl receiveAt (summarized coloring .always)).outputText =
        (moments.foldl receiveAt (summarized .never .never)).outputText := by
  intro report summarized
  have hfresh := Console.Paints.fresh k failing
  refine ⟨?_, ?_⟩
  · have hsignals : ∀ i ∈ moments.map Prod.snd, ∀ s ∈ i.texts, Style.escape ∉ s := fun i hi => by
      obtain ⟨m, hm, rfl⟩ := List.mem_map.1 hi
      exact (hmoments m hm).2
    exact (hfresh.receiveAll hk hsignals).output.text.erase_eq
  · obtain ⟨t, d, d', hpaints, hcolored, hplain⟩ :=
      exists_foldl_receiveAt hk hmoments coloring.isPainted {} hfresh
    have hcolored' : moments.foldl receiveAt (summarized coloring .always) = _ := hcolored
    have hplain' : moments.foldl receiveAt (summarized .never .never) = _ := hplain
    rw [hcolored', hplain']
    exact hpaints.output.text.erase_eq

/-- A story with a failing step and a pending one, a text in between, and the times at which they are
reported. -/
def exampleMoments : List (Text × Signal) :=
  [("0s", .event (.beforeStory { path? := some "top", description := " about " } false)),
    ("0s", .event (.beforeScenario "one")), ("1ms", .text "[Note]\r\n  as it is"),
    ("2ms", .event (.exampleRow ⟨[("who", "Ada")], by decide⟩)),
    ("1s 2ms", .event (.outcome (.failed "When x" (.failed (.panic "When x" "boom"))))),
    ("1s 3ms", .event (.outcome (.pending "Then y"))), ("1s 4ms", .event .afterScenario),
    ("1m 1s", .event (.afterStory false))]

theorem erase_outputText_of_failed_step :
    let report := Reporter.summary { painted := true } (console { painted := true })
    (∀ m ∈ exampleMoments, m.1.IsLabel ∧ ∀ s ∈ m.2.texts, Style.escape ∉ s) ∧
      Style.escape ∈ (exampleMoments.foldl receiveAt report).outputText ∧
      Style.erase (exampleMoments.foldl receiveAt report).outputText =
        ("Story: top\n  about\n" ++ "  Scenario: one\n" ++ "[Note]\n  as it is\n" ++
          "    Example: \x7bwho=Ada\x7d\n" ++ "    ✘  When x (FAILED)\n" ++
          "       `When x` panicked: boom\n" ++ "    ?  Then y (PENDING)\n" ++
          "[Summary]\n1 story\n1 scenario (1 failed)\n2 steps (1 failed, 1 pending)\n" ++
          "Took 1m 1s\n" : Text) := by
  intro report
  have hk : ∀ w, Style.escape ∉ Keywords.english.token w := fun w => by cases w <;> decide
  have hmoments : ∀ m ∈ exampleMoments, m.1.IsLabel ∧ ∀ s ∈ m.2.texts, Style.escape ∉ s := by
    decide +kernel
  refine ⟨hmoments, by decide +kernel, ?_⟩
  exact (erase_outputText hk [] .always hmoments).2.trans (by decide +kernel)

end Reporter

end PlainStory
