import PlainStory.Proofs.Story.RoundTrip

/-!
# Clauses that quote words

A line opens a part of a story only by its beginning, but the words of a narrative are searched for
anywhere in its text. A clause that quotes the next word within a line ends there, and the rest of the
clause goes to the next one.
-/

namespace PlainStory

namespace Text

/-- Free text: it has no blanks around it and no carriage returns, and none of its lines opens
anything. -/
structure IsProse (s : Text) : Prop where
  trim : Text.trim s = s
  no_return : '\r' ∉ s
  lines : OpensNothing s

/-- A text without a line that begins with the word of a clause, blanks aside. -/
def StartsNoClause (s : Text) : Prop :=
  ∀ l ∈ splitAt '\n' s, ∀ w ∈ [Keyword.inOrderTo, .asA, .iWantTo, .soThat],
    startsWith w.english (trimStart l) = false

instance (s : Text) : Decidable (IsProse s) :=
  decidable_of_iff (Text.trim s = s ∧ '\r' ∉ s ∧ OpensNothing s)
    ⟨fun ⟨h₁, h₂, h₃⟩ => ⟨h₁, h₂, h₃⟩, fun ⟨h₁, h₂, h₃⟩ => ⟨h₁, h₂, h₃⟩⟩

instance (s : Text) : Decidable (StartsNoClause s) :=
  inferInstanceAs (Decidable (∀ l ∈ splitAt '\n' s,
    ∀ w ∈ [Keyword.inOrderTo, .asA, .iWantTo, .soThat], startsWith w.english (trimStart l) = false))

end Text

theorem Keyword.return_not_mem_write (w : Keyword) {s : Text} (h : '\r' ∉ s) : '\r' ∉ w.write s := by
  have hw : '\r' ∉ w.english ++ [' '] := by cases w <;> decide
  rw [write, List.append_cons, List.mem_append, not_or]
  exact ⟨hw, h⟩

variable {a b c rest : Text}

namespace Narrative

/-- What clauses behind their words become where each is cut in front of the next word: what is behind
that word in the first clause goes to the second one, with the line of the second clause, and so on. -/
def cutAtWords (a b c : Text) : Narrative :=
  let later := Text.behind Keyword.asA.english a (' ' :: b)
  withPurpose (Text.trim (Text.before Keyword.asA.english a))
    (Text.trim (Text.before Keyword.iWantTo.english later))
    (Text.trim (Text.behind Keyword.iWantTo.english later (' ' :: c)))

theorem ofText_joinLines_write (a b c : Text) :
    ofText .english (Text.joinLines
        [[], Keyword.inOrderTo.write a, Keyword.asA.write b, Keyword.iWantTo.write c]) =
      cutAtWords a b c := by
  have hk : ∀ w : Keyword, w.english ≠ [] ∧ '\n' ∉ w.english := Keywords.plain_english.token
  have hspace := NarrativeText.not_isPrefix_space_cons .asA a
  have h := clauses?_joinLines (hk .inOrderTo) (hk .asA) (hk .iWantTo) (' ' :: a) (' ' :: b)
    (' ' :: c)
  rw [Text.before_cons hspace, Text.trim_cons_of_blank (by decide), Text.behind_cons hspace] at h
  rw [ofText, show Keywords.english.token = Keyword.english from rfl]
  simp only [Keyword.write, h, cutAtWords]

/-- Trimmed clauses are left whole exactly where neither of the first two holds the word of the clause
behind it. -/
theorem cutAtWords_eq_iff (ha : Text.trim a = a) (hb : Text.trim b = b) (hc : Text.trim c = c) :
    cutAtWords a b c = withPurpose a b c ↔
      ¬ Keyword.asA.english <:+: a ∧ ¬ Keyword.iWantTo.english <:+: b := by
  have hne : ∀ w : Keyword, w.english ≠ [] := Keywords.plain_english.ne_nil
  have htrim : ∀ s, Text.trim (' ' :: s) = Text.trim s := Text.trim_cons_of_blank (by decide)
  by_cases hquote : Keyword.asA.english <:+: a
  · refine iff_of_false (fun h => ?_) fun h => h.1 hquote
    have hfirst := congrArg Narrative.inOrderTo h
    exact (Text.trim_before_eq_iff (hne .asA) ha).1 hfirst hquote
  · have hspace := NarrativeText.not_isPrefix_space_cons .iWantTo b
    have hcut : cutAtWords a b c = withPurpose a (Text.trim (Text.before Keyword.iWantTo.english b))
        (Text.trim (Text.behind Keyword.iWantTo.english b (' ' :: c))) := by
      simp only [cutAtWords, Text.behind_eq_self hquote, Text.before_eq_self hquote,
        Text.before_cons hspace, Text.behind_cons hspace, htrim, ha]
    rw [hcut]
    refine ⟨fun h => ⟨hquote, ?_⟩, fun ⟨_, hno⟩ => ?_⟩
    · exact (Text.trim_before_eq_iff (hne .iWantTo) hb).1 (congrArg Narrative.asA h)
    · rw [Text.before_eq_self hno, Text.behind_eq_self hno, htrim, hb, hc]

end Narrative

namespace Story

/-- The lines of a narrative of prose, up to the text behind it. -/
theorem lines_joinLines_write (ha : '\r' ∉ a) (hb : '\r' ∉ b) (hc : '\r' ∉ c) (rest : Text) :
    Text.lines (Text.joinLines [Keyword.narrative.english, Keyword.inOrderTo.write a,
        Keyword.asA.write b, Keyword.iWantTo.write c, rest]) =
      Text.linesOf (NarrativeText.purpose a b c).parts ++ Text.lines rest := by
  have hparts : ∀ part ∈ (NarrativeText.purpose a b c).parts, '\r' ∉ part := by
    simp only [NarrativeText.parts, NarrativeText.clauses, List.map_cons, List.map_nil,
      List.forall_mem_cons]
    exact ⟨by decide, Keyword.inOrderTo.return_not_mem_write ha, Keyword.asA.return_not_mem_write hb,
      Keyword.iWantTo.return_not_mem_write hc, List.forall_mem_nil _⟩
  have hr : '\r' ∉ Text.joinLines (NarrativeText.purpose a b c).parts :=
    Text.not_mem_join (by decide) hparts
  have hne : (NarrativeText.purpose a b c).parts ≠ [] := List.cons_ne_nil _ _
  show Text.lines (Text.joinLines ((NarrativeText.purpose a b c).parts ++ [rest])) = _
  rw [Text.joinLines_append hne (List.cons_ne_nil _ _), Text.joinLines_singleton,
    Text.lines_append_break_of_not_mem hr, Text.joinLines, Text.splitAt_join_eq_flatMap '\n' hne,
    Text.linesOf]

theorem narrative_ofText_write (ha : a.IsProse) (hb : b.IsProse) (hc : c.IsProse)
    (hrest : ∀ l ∈ (Text.lines rest).head?, Keywords.english.opens .scenario l = true)
    (path? : Option Text) :
    (ofText .english (Text.joinLines [Keyword.narrative.english, Keyword.inOrderTo.write a,
        Keyword.asA.write b, Keyword.iWantTo.write c, rest]) path?).narrative =
      Narrative.ofText .english (Text.joinLines
        [[], Keyword.inOrderTo.write a, Keyword.asA.write b, Keyword.iWantTo.write c]) := by
  have hclauses : ∀ clause ∈ (NarrativeText.purpose a b c).clauses, Text.OpensNothing clause.2 := by
    simp only [NarrativeText.clauses, List.forall_mem_cons]
    exact ⟨ha.lines, hb.lines, hc.lines, List.forall_mem_nil _⟩
  have hne : NarrativeText.purpose a b c ≠ .absent := by simp
  have hread := NarrativeText.ofLines_append_of_ne_absent hne hclauses hrest
  have hopener := StoryText.head?_linesOf_rest (.purpose a b c) hrest
  rw [ofText_eq_ofLines, lines_joinLines_write ha.no_return hb.no_return hc.no_return,
    ← List.nil_append (Text.linesOf _ ++ _), ofLines_append (List.forall_mem_nil _) hopener, hread]
  rfl

/-- The narrative of a story in which prose clauses stand behind their words on lines of their own. Each
clause is cut where it holds the next word, so the clauses come back exactly where neither of the first
two holds the word of the clause behind it. -/
theorem narrative_ofText_prose (ha : a.IsProse) (hb : b.IsProse) (hc : c.IsProse)
    (hrest : ∀ l ∈ (Text.lines rest).head?, Keywords.english.opens .scenario l = true)
    (path? : Option Text) :
    let n := (ofText .english (Text.joinLines [Keyword.narrative.english, Keyword.inOrderTo.write a,
      Keyword.asA.write b, Keyword.iWantTo.write c, rest]) path?).narrative
    n = .cutAtWords a b c ∧
      (n = .withPurpose a b c ↔
        ¬ Keyword.asA.english <:+: a ∧ ¬ Keyword.iWantTo.english <:+: b) := by
  intro n
  have hn : n = .cutAtWords a b c :=
    (narrative_ofText_write ha hb hc hrest path?).trans (Narrative.ofText_joinLines_write a b c)
  rw [hn]
  exact ⟨rfl, Narrative.cutAtWords_eq_iff ha.trim hb.trim hc.trim⟩

/-- Words that are not the next one can be quoted. -/
theorem narrative_ofText_prose_of_other_words :
    let a : Text := "know what I want to sell,\n  and So that it pays"
    let b : Text := "vendor As a service"
    let c : Text := "send bills In order to live As a vendor"
    let rest : Text := "Scenario: billing\nGiven a bill"
    (∀ s ∈ [a, b, c], s.IsProse ∧ s.StartsNoClause) ∧
      (∀ l ∈ (Text.lines rest).head?, Keywords.english.opens .scenario l = true) ∧
      (ofText .english (Text.joinLines [Keyword.narrative.english, Keyword.inOrderTo.write a,
        Keyword.asA.write b, Keyword.iWantTo.write c, rest])).narrative = .withPurpose a b c := by
  intro a b c rest
  have hprose : ∀ s ∈ [a, b, c], s.IsProse ∧ s.StartsNoClause := by decide +kernel
  have hrest : ∀ l ∈ (Text.lines rest).head?, Keywords.english.opens .scenario l = true := by
    decide +kernel
  have hread := narrative_ofText_prose (hprose a (by simp)).1 (hprose b (by simp)).1
    (hprose c (by simp)).1 hrest none
  exact ⟨hprose, hrest, hread.2.2 (by decide +kernel)⟩

/-- A clause that quotes the word of the next one within a line is cut there. -/
theorem narrative_ne_of_quoted_word :
    let a : Text := "sell software As a service"
    let b : Text := "vendor"
    let c : Text := "send bills"
    let rest : Text := "Scenario: billing\nGiven a bill"
    let n := (ofText .english (Text.joinLines [Keyword.narrative.english, Keyword.inOrderTo.write a,
      Keyword.asA.write b, Keyword.iWantTo.write c, rest])).narrative
    (∀ s ∈ [a, b, c], s.IsProse ∧ s.StartsNoClause) ∧
      (∀ l ∈ (Text.lines rest).head?, Keywords.english.opens .scenario l = true) ∧
      n = .withPurpose "sell software" "service\nAs a vendor" "send bills" ∧
      n ≠ .withPurpose a b c := by
  decide +kernel

end Story

end PlainStory
