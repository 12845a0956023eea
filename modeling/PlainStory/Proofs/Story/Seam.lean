import PlainStory.Proofs.Story.Breaks
import PlainStory.Proofs.Text.Lines

/-!
# Stories one after another

A text whose scenarios are followed by those of another text, on new lines. Where the second text opens
a scenario with its first line, nothing of it goes to the scenarios of the first, and what ends the last
of those is at most blanks and an empty line, which no part of a scenario keeps.
-/

namespace PlainStory

variable {k : Keywords}

namespace Scenario

/-! ### Blanks at the end of the last line -/

section

variable {t : Text} (ht : ∀ c ∈ t, Text.isBlank c = true)

include ht

theorem pathsOf_concat_append (ls : List Text) (l : Text) :
    pathsOf (ls ++ [l ++ t]) = pathsOf (ls ++ [l]) := by
  have hcomma : ',' ∉ t := fun h => absurd (ht _ h) (by decide)
  have hone : pathsOf [l ++ t] = pathsOf [l] := by
    obtain ⟨init, last, hl, hlt⟩ := Text.exists_splitAt_append l hcomma
    have hjoin : ∀ s : Text, Text.join [','] [s] = s := fun s => by simp [Text.join]
    rw [pathsOf, pathsOf, hjoin, hjoin, hl, hlt, List.map_append, List.map_append,
      List.map_singleton, List.map_singleton, Text.trim_append_of_blank last ht]
  cases ls with
  | nil => exact hone
  | cons l' ls =>
    rw [pathsOf_append (List.cons_ne_nil l' ls) (List.cons_ne_nil _ _),
      pathsOf_append (List.cons_ne_nil l' ls) (List.cons_ne_nil _ _), hone]

theorem Draft.close_concat_append (done : Scenario) (part : Part) (ls : List Text) (l : Text) :
    (Draft.mk done part (ls ++ [l ++ t])).close = (Draft.mk done part (ls ++ [l])).close := by
  have htrim : Text.trim (Text.joinLines (ls ++ [l ++ t])) =
      Text.trim (Text.joinLines (ls ++ [l])) := by
    rw [Text.joinLines_concat_append, Text.trim_append_of_blank _ ht]
  rw [close, close]
  cases part with
  | title => simp only [htrim]
  | givenStories => simp only [pathsOf_concat_append ht]
  | step => simp only [htrim]
  | examples => simp only [Table.ofText_eq_of_trim htrim]

theorem Draft.close_turnTo_append (d : Draft) (part : Part) (l : Text) :
    (d.turnTo part (l ++ t)).close = (d.turnTo part l).close :=
  close_concat_append ht d.close part [] l

/-- The last line of a scenario may end with other blanks. -/
theorem Draft.close_addLine_append (hk : k.Tidy) (d : Draft) (l : Text) :
    (d.addLine k (l ++ t)).close = (d.addLine k l).close := by
  have hlonger := close_concat_append ht d.done d.part d.lines l
  rw [addLine, addLine, Keywords.opener?_append_of_blank ht hk]
  by_cases hd : d.part = .examples
  · rw [if_pos hd, if_pos hd]
    exact hlonger
  · rw [if_neg hd, if_neg hd]
    cases ho : k.opener? l with
    | none => exact hlonger
    | some o =>
      have hkeyword : ∀ w, o.keyword? = some w →
          k.withoutKeyword w (l ++ t) = k.withoutKeyword w l ++ t := fun w hw =>
        Keywords.withoutKeyword_append (hk.ne_nil w) (Keywords.startsWith_of_opener? hw ho) t
      cases o with
      | scenario => exact hlonger
      | narrative => exact hlonger
      | givenStories =>
        simp only [hkeyword _ rfl]
        exact close_turnTo_append ht d .givenStories _
      | examples =>
        simp only [hkeyword _ rfl]
        exact close_turnTo_append ht d .examples _
      | step =>
        have hne := Keywords.not_blank_of_opener? hk.ne_nil ho
        simp only [Text.trimStart_append_of_not_blank hne]
        exact close_turnTo_append ht d .step _

theorem ofLines_concat_append (hk : k.Tidy) (title : Text) (ls : List Text) (l : Text) :
    ofLines k title (ls ++ [l ++ t]) = ofLines k title (ls ++ [l]) := by
  rw [ofLines, ofLines, List.foldl_append, List.foldl_append]
  exact Draft.close_addLine_append ht hk _ l

theorem ofLines_title_append (title : Text) : ofLines k (title ++ t) [] = ofLines k title [] :=
  Draft.close_concat_append ht {} .title [] title

theorem ofBlocks_concat_append (hk : k.Tidy) (ls : List Text) (l : Text) :
    ofBlocks k (ls ++ [l ++ t]) = ofBlocks k (ls ++ [l]) := by
  have hopens : k.opens .scenario (l ++ t) = k.opens .scenario l := by
    rw [Keywords.opens, Keywords.opens, Keywords.opener?_append_of_blank ht hk]
  cases hl : k.opens .scenario l with
  | true =>
    have hblocks : ∀ s : Text, k.opens .scenario s = true →
        blocksAt (k.opens .scenario) [s] = ([], [(s, [])]) := fun s hs => by
      simp only [blocksAt, hs, if_true]
    have hx := hblocks _ (hopens.trans hl)
    have hy := hblocks _ hl
    refine map_blocksAt_append (fun line rest => by rw [hx, hy]) ?_ ls
    have hstart := Keywords.startsWith_of_opener? rfl (of_decide_eq_true hl)
    simp only [hx, hy, List.map_singleton,
      Keywords.withoutKeyword_append (hk.ne_nil .scenario) hstart, ofLines_title_append ht]
  | false =>
    have hfront : ∀ s : Text, k.opens .scenario s = false →
        blocksAt (k.opens .scenario) [s] = ([s], []) := fun s hs => by
      simp only [blocksAt, hs, Bool.false_eq_true, if_false]
    have hx := hfront _ (hopens.trans hl)
    have hy := hfront _ hl
    refine map_blocksAt_append (fun line rest => ?_) (by rw [hx, hy]) ls
    simp only [hx, hy, ofLines_concat_append ht hk]

end

/-! ### Line breaks at the end -/

theorem ofBlocks_of_ended (hk : k.Tidy) {ls ms : List Text} (h : Text.Ended ls ms) :
    ofBlocks k ms = ofBlocks k ls := by
  cases h with
  | same => rfl
  | empty => exact ofBlocks_concat_nil hk.ne_nil ls
  | unreturned init l h =>
    rw [h, ofBlocks_concat_append Text.isBlank_return hk]

end Scenario

namespace Text

/-- A line break at the end of the lines does not change what the first of them opens. -/
theorem Ended.exists_cons (hk : k.Tidy) {line : Text} {ls ms : List Text}
    (h : Ended (line :: ls) ms) :
    ∃ line' ls', ms = line' :: ls' ∧ k.opener? line' = k.opener? line := by
  generalize hall : line :: ls = all at h
  cases h with
  | same => exact ⟨line, ls, hall.symm, rfl⟩
  | empty => exact ⟨line, ls ++ [[]], by rw [← hall, List.cons_append], rfl⟩
  | unreturned init l h =>
    subst hall
    cases init with
    | nil =>
      obtain ⟨rfl, -⟩ := List.cons_eq_cons.1 h
      exact ⟨l, [], rfl, (Keywords.opener?_append_of_blank isBlank_return hk l).symm⟩
    | cons l' init =>
      obtain ⟨rfl, -⟩ := List.cons_eq_cons.1 h
      exact ⟨line, init ++ [l], rfl, rfl⟩

end Text

/-! ### What is in front of the scenarios -/

/-- A narrative comes from the lines in front of the first scenario, and takes none behind it. -/
theorem Narrative.exists_ofLines_eq {pre : List Text}
    (hpre : ∀ l ∈ pre, k.opens .scenario l = false) :
    ∃ narrative, ∀ line lines, k.opens .scenario line = true →
      ∃ own, ofLines k (pre ++ line :: lines) = (narrative, own ++ line :: lines) ∧
        ∀ l ∈ own, k.opens .scenario l = false := by
  cases pre with
  | nil =>
    refine ⟨empty, fun line lines hline => ⟨[], ?_, nofun⟩⟩
    have hopener : k.opener? line = some .scenario := of_decide_eq_true hline
    exact ofLines_of_not_opens (by simp [hopener]) lines
  | cons first pre =>
    cases hfirst : k.opens .narrative first with
    | true =>
      have hpre' := (List.forall_mem_cons.1 hpre).2
      refine ⟨ofText k (k.withoutKeyword .narrative (Text.joinLines (first :: pre))),
        fun line lines hline => ⟨[], ?_, nofun⟩⟩
      rw [List.cons_append, ofLines_of_opens (of_decide_eq_true hfirst),
        partLines_append_scenario hpre' hline, List.nil_append]
    | false =>
      refine ⟨empty, fun line lines _ => ⟨first :: pre, ?_, hpre⟩⟩
      rw [List.cons_append, ofLines_of_not_opens (of_decide_eq_false hfirst)]

namespace Story

/-- The description and the narrative of a story come from the lines in front of its first
scenario. -/
theorem exists_ofLines_eq {pre : List Text} (hpre : ∀ l ∈ pre, k.opens .scenario l = false)
    (path? : Option Text) :
    ∃ description narrative, ∀ line lines, k.opens .scenario line = true →
      ofLines k (pre ++ line :: lines) path? =
        { path?, description, narrative, scenarios := Scenario.ofBlocks k (line :: lines) } := by
  obtain ⟨front, back, rfl, hfront, hback⟩ := Text.exists_run (fun l => (k.opener? l).isNone) pre
  have hback' : ∀ l ∈ back, k.opens .scenario l = false := fun l hl =>
    hpre l (List.mem_append_right front hl)
  obtain ⟨narrative, hnarrative⟩ := Narrative.exists_ofLines_eq hback'
  refine ⟨Text.trim (Text.joinLines front), narrative, fun line lines hline => ?_⟩
  obtain ⟨own, hown, hnone⟩ := hnarrative line lines hline
  have hrest : ∀ l ∈ (back ++ line :: lines).head?, k.opener? l ≠ none := by
    cases back with
    | nil => simp [show k.opener? line = some .scenario from of_decide_eq_true hline]
    | cons l ls => simpa [← Option.isSome_iff_ne_none] using hback l rfl
  have hfront : ∀ l ∈ front, k.opener? l = none := by simpa using hfront
  rw [List.append_assoc, ofLines_append hfront hrest, hown, Scenario.listOfLines_append hnone hline]

/-- Two texts with a line break between them, where the first has a scenario and the second starts
with one, hold the first story with the scenarios of both. -/
theorem ofText_append_of_scenario (hk : k.Tidy) {a b brk : Text} (hbrk : brk ∈ Text.breaks)
    (ha : ∃ l ∈ Text.lines a, k.opens .scenario l = true)
    (hb : ∃ l ∈ (Text.lines b).head?, k.opens .scenario l = true) (path? : Option Text) :
    ofText k (a ++ brk ++ b) path? =
      { ofText k a path? with
        scenarios := (ofText k a path?).scenarios ++ (ofText k b path?).scenarios } := by
  obtain ⟨pre, rest, hlines, hpre, hrest⟩ :=
    Text.exists_run (fun l => !k.opens .scenario l) (Text.lines a)
  have hpre' : ∀ l ∈ pre, k.opens .scenario l = false := by simpa using hpre
  obtain ⟨s, ls, rfl⟩ : ∃ s ls, rest = s :: ls := by
    refine List.exists_cons_of_ne_nil ?_
    rintro rfl
    obtain ⟨l, hl, hopens⟩ := ha
    rw [hlines, List.append_nil] at hl
    rw [hpre' l hl] at hopens
    exact Bool.false_ne_true hopens
  have hs : k.opens .scenario s = true := by simpa using hrest s rfl
  obtain ⟨t, hfirst, ht⟩ := hb
  obtain ⟨ts, hlinesb⟩ := List.head?_eq_some_iff.1 hfirst
  -- The line break changes no line in front of the first scenario, and nothing in a scenario.
  have hended := Text.ended_lines_append hbrk a
  rw [hlines] at hended
  obtain ⟨ms, hms, hended⟩ := hended.of_append (List.cons_ne_nil s ls)
  have hblocks := Scenario.ofBlocks_of_ended hk hended
  obtain ⟨s', ls', rfl, hopener⟩ := hended.exists_cons hk
  have hs' : k.opens .scenario s' = true := by
    rw [Keywords.opens, hopener]
    exact hs
  obtain ⟨description, narrative, hstory⟩ := exists_ofLines_eq hpre' path?
  have hall : Text.lines (a ++ brk ++ b) = pre ++ s' :: (ls' ++ t :: ts) := by
    rw [Text.lines_append_append hbrk, hms, hlinesb, List.append_assoc, List.cons_append]
  have hscenarios : (ofText k b path?).scenarios = Scenario.ofBlocks k (t :: ts) := by
    have hnone : ∀ l ∈ ([] : List Text), k.opens .scenario l = false := List.forall_mem_nil _
    obtain ⟨_, _, hb⟩ := exists_ofLines_eq hnone path?
    rw [ofText_eq_ofLines, hlinesb]
    exact congrArg Story.scenarios (hb t ts ht)
  rw [hscenarios, ofText_eq_ofLines, ofText_eq_ofLines, hall, hlines, hstory _ _ hs',
    hstory _ _ hs, ← List.cons_append, Scenario.ofBlocks_append _ ht, hblocks]

theorem ofText_append_of_examples :
    ofText .english ("Greetings\nScenario: one\nGiven a guest\nExamples:\n|name|\r" ++
        ("\n" : Text) ++ "Scenario: two\nThen all is said") =
      { description := "Greetings"
        scenarios :=
          [{ title := "one", steps := ["Given a guest"]
             examples := ⟨["name"], [], "|name|"⟩ },
           { title := "two", steps := ["Then all is said"] }] } :=
  (ofText_append_of_scenario Keywords.tidy_english (by decide) (by decide +kernel)
    (by decide +kernel) none).trans (by decide +kernel)

end Story

end PlainStory
