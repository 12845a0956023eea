import PlainStory.Proofs.Story.Blocks
import PlainStory.Proofs.Story.Openers

/-!
# Line breaks around a story

A story does not change with line breaks in front of its text or behind it. `Story.ofLines` is the
reading of a text whose lines are already parted, in which such a break is an empty line.
-/

namespace PlainStory

/-- Tokens that can be found in a line: none is empty or holds a line break. -/
structure Keywords.Plain (k : Keywords) : Prop where
  ne_nil (w : Keyword) : k.token w ≠ []
  no_break (w : Keyword) : '\n' ∉ k.token w

theorem Keywords.plain_english : Keywords.Plain .english where
  ne_nil w := by cases w <;> decide
  no_break w := by cases w <;> decide

theorem Keywords.Plain.token {k : Keywords} (hk : k.Plain) (w : Keyword) :
    k.token w ≠ [] ∧ '\n' ∉ k.token w := ⟨hk.ne_nil w, hk.no_break w⟩

/-! ### Empty last lines -/

theorem Table.ofText_eq_of_trim {s t : Text} (h : Text.trim s = Text.trim t) :
    Table.ofText s = Table.ofText t := by
  rw [Table.ofText, h, Table.ofText]

namespace Narrative

variable {k : Keywords}

theorem clauses?_concat_break {first second third : Text} (h₁ : first ≠ [] ∧ '\n' ∉ first)
    (h₂ : second ≠ [] ∧ '\n' ∉ second) (h₃ : third ≠ [] ∧ '\n' ∉ third) (text : Text) :
    clauses? first second third (text ++ ['\n']) = clauses? first second third text := by
  have hcut : ∀ {word : Text}, word ≠ [] ∧ '\n' ∉ word → ∀ s, Text.cut? word (s ++ ['\n']) =
      (Text.cut? word s).map fun x => (x.1, x.2 ++ ['\n']) :=
    fun hw => Text.cut?_concat_break hw.2 hw.1
  rw [clauses?, clauses?, hcut h₁]
  cases Text.cut? first text with
  | none => rfl
  | some x =>
    simp only [Option.map_some, Option.bind_eq_bind, Option.bind_some, hcut h₂]
    cases Text.cut? second x.2 with
    | none => rfl
    | some y =>
      simp only [Option.map_some, Option.bind_some, hcut h₃]
      cases Text.cut? third y.2 with
      | none => rfl
      | some z => simp [Text.trim_append_newline]

theorem ofText_concat_break (hk : k.Plain) (text : Text) :
    ofText k (text ++ ['\n']) = ofText k text := by
  have h := hk.token
  rw [ofText, clauses?_concat_break (h _) (h _) (h _), clauses?_concat_break (h _) (h _) (h _),
    ofText]

/-- A run of lines takes an empty last line in where it reaches to it, and leaves it to the rest
where it does not. -/
theorem span_concat_nil {p : Text → Bool} (hp : p [] = true) (ls : List Text) :
    ls.span p = (ls, []) ∧ (ls ++ [[]]).span p = (ls ++ [[]], []) ∨
      ∃ run rest, ls.span p = (run, rest) ∧ rest ≠ [] ∧
        (ls ++ [[]]).span p = (run, rest ++ [[]]) := by
  obtain ⟨run, rest, rfl, hrun, hrest⟩ := Text.exists_run p ls
  cases rest with
  | nil =>
    have hrun' : ∀ l ∈ run ++ [[]], p l = true := by
      intro l hl
      rcases List.mem_append.1 hl with hl | hl
      · exact hrun l hl
      · rwa [List.mem_singleton.1 hl]
    refine .inl ⟨?_, ?_⟩
    · rw [List.append_nil, Text.span_eq_self hrun]
    · rw [List.append_nil, Text.span_eq_self hrun']
  | cons l ls =>
    refine .inr ⟨run, l :: ls, Text.span_append_eq hrun hrest, List.cons_ne_nil l ls, ?_⟩
    rw [List.append_assoc]
    exact Text.span_append_eq hrun hrest

theorem partLines_concat_nil (hk : k.Plain) (ls : List Text) :
    partLines k ls = (ls, []) ∧ partLines k (ls ++ [[]]) = (ls ++ [[]], []) ∨
      ∃ own rest, partLines k ls = (own, rest) ∧ rest ≠ [] ∧
        partLines k (ls ++ [[]]) = (own, rest ++ [[]]) := by
  have hopener := Keywords.opener?_nil hk.ne_nil
  have hopens : k.opens .scenario [] = false := by simp [Keywords.opens, hopener]
  have hwithin : k.opensWithinScenario [] = false := by
    simp [Keywords.opensWithinScenario, hopener]
  have hany : (ls ++ [[]]).any (k.opens .scenario) = ls.any (k.opens .scenario) := by
    simp [hopens]
  rw [partLines, partLines, hany]
  split
  · exact span_concat_nil (by simp [hopens]) ls
  · exact span_concat_nil (by simp [hwithin]) ls

theorem ofLines_concat_nil (hk : k.Plain) (ls : List Text) :
    ∃ body, (body = (ofLines k ls).2 ∨ body = (ofLines k ls).2 ++ [[]]) ∧
      ofLines k (ls ++ [[]]) = ((ofLines k ls).1, body) := by
  cases ls with
  | nil =>
    have h : k.opens .narrative [] = false := by simp [Keywords.opens, Keywords.opener?_nil hk.ne_nil]
    exact ⟨[[]], .inr rfl, by simp [ofLines, h]⟩
  | cons line ls =>
    rw [List.cons_append, ofLines, ofLines]
    split
    · next hline =>
      rcases partLines_concat_nil hk ls with ⟨h₁, h₂⟩ | ⟨own, rest, h₁, -, h₂⟩
      · rw [h₁, h₂]
        refine ⟨[], .inl rfl, ?_⟩
        have hstart := Keywords.startsWith_of_opener? rfl (of_decide_eq_true hline)
        have hw := Keywords.withoutKeyword_append (hk.ne_nil .narrative) hstart
        obtain ⟨t, ht⟩ := Text.exists_joinLines_cons line ls
        have hjoin : Text.joinLines (line :: (ls ++ [[]])) = line ++ (t ++ ['\n']) := by
          rw [← List.cons_append, Text.joinLines_append (List.cons_ne_nil line ls)
            (List.cons_ne_nil _ _), ht, Text.joinLines_singleton, List.append_assoc]
        simp only [hjoin, ht, hw]
        rw [← List.append_assoc, ofText_concat_break hk]
      · rw [h₁, h₂]
        exact ⟨_, .inr rfl, rfl⟩
    · exact ⟨_, .inr rfl, rfl⟩

end Narrative

namespace Scenario

variable {k : Keywords}

theorem pathsOf_append {ls ms : List Text} (hl : ls ≠ []) (hm : ms ≠ []) :
    pathsOf (ls ++ ms) = pathsOf ls ++ pathsOf ms := by
  rw [pathsOf, Text.join_append _ hl hm, List.append_assoc, List.singleton_append,
    Text.splitAt_append, List.map_append, List.filter_append]
  rfl

theorem pathsOf_concat_nil (ls : List Text) : pathsOf (ls ++ [[]]) = pathsOf ls := by
  cases ls with
  | nil => rfl
  | cons l ls =>
    rw [pathsOf_append (List.cons_ne_nil l ls) (List.cons_ne_nil _ _)]
    exact List.append_nil _

theorem Draft.close_concat_nil (d : Draft) :
    ({ d with lines := d.lines ++ [[]] } : Draft).close = d.close := by
  have htrim := Text.trim_joinLines_concat_nil d.lines
  rw [close, close]
  cases d.part with
  | title => simp only [htrim]
  | givenStories => simp only [pathsOf_concat_nil]
  | step => simp only [htrim]
  | examples => simp only [Table.ofText_eq_of_trim htrim]

theorem Draft.addLine_nil (hk : ∀ w, k.token w ≠ []) (d : Draft) :
    d.addLine k [] = { d with lines := d.lines ++ [[]] } := by
  simp [addLine, Keywords.opener?_nil hk]

theorem ofLines_concat_nil (hk : ∀ w, k.token w ≠ []) (title : Text) (ls : List Text) :
    ofLines k title (ls ++ [[]]) = ofLines k title ls := by
  rw [ofLines, List.foldl_append, List.foldl_cons, List.foldl_nil, Draft.addLine_nil hk,
    Draft.close_concat_nil, ofLines]

theorem ofBlocks_concat_nil (hk : ∀ w, k.token w ≠ []) (ls : List Text) :
    ofBlocks k (ls ++ [[]]) = ofBlocks k ls := by
  have hopens : k.opens .scenario [] = false := by simp [Keywords.opens, Keywords.opener?_nil hk]
  have hempty : blocksAt (k.opens .scenario) [[]] = ([[]], []) := by
    simp only [blocksAt, hopens, Bool.false_eq_true, if_false]
  conv_rhs => rw [← List.append_nil ls]
  rw [ofBlocks, ofBlocks]
  refine map_blocksAt_append (fun line rest => ?_) (by rw [hempty]; rfl) ls
  rw [hempty]
  simp only [blocksAt, List.append_nil, ofLines_concat_nil hk]

theorem listOfLines_concat_nil (hk : k.Plain) (ls : List Text) :
    listOfLines k (ls ++ [[]]) = listOfLines k ls := by
  have hblank : (ls ++ [[]]).all Text.blank = ls.all Text.blank := by
    rw [List.all_append, show List.all [[]] Text.blank = true from rfl, Bool.and_true]
  rw [listOfLines_eq, listOfLines_eq, ofBlocks_concat_nil hk.ne_nil, hblank,
    ofLines_concat_nil hk.ne_nil]

end Scenario

/-! ### Line breaks -/

namespace Story

/-- The story that the lines of a text hold. -/
def ofLines (k : Keywords) (lines : List Text) (path? : Option Text := none) : Story :=
  let (front, rest) := lines.span fun l => (k.opener? l).isNone
  let (narrative, body) := Narrative.ofLines k rest
  { path?
    description := Text.trim (Text.joinLines front)
    narrative
    scenarios := Scenario.listOfLines k body }

variable {k : Keywords}

theorem ofText_eq_ofLines (text : Text) (path? : Option Text) :
    ofText k text path? = ofLines k (Text.lines text) path? := rfl

/-- Lines that open nothing are the description, and what follows them is read from the first line
that opens something. -/
theorem ofLines_append {front rest : List Text} (hfront : ∀ l ∈ front, k.opener? l = none)
    (hrest : ∀ l ∈ rest.head?, k.opener? l ≠ none) (path? : Option Text) :
    ofLines k (front ++ rest) path? =
      { path?
        description := Text.trim (Text.joinLines front)
        narrative := (Narrative.ofLines k rest).1
        scenarios := Scenario.listOfLines k (Narrative.ofLines k rest).2 } := by
  have hspan : (front ++ rest).span (fun l => (k.opener? l).isNone) = (front, rest) :=
    Text.span_append_eq (fun l hl => by rw [hfront l hl]; rfl) fun l hl =>
      Option.isNone_eq_false_iff.2 (Option.isSome_iff_ne_none.2 (hrest l hl))
  rw [ofLines, hspan]

theorem ofLines_nil_cons (hk : k.Plain) (ls : List Text) (path? : Option Text) :
    ofLines k ([] :: ls) path? = ofLines k ls path? := by
  have hnil : (k.opener? []).isNone = true := by rw [Keywords.opener?_nil hk.ne_nil]; rfl
  obtain ⟨front, rest, rfl, hfront, hrest⟩ := Text.exists_run (fun l => (k.opener? l).isNone) ls
  have hfront' : ∀ l ∈ [] :: front, (k.opener? l).isNone = true :=
    List.forall_mem_cons.2 ⟨hnil, hfront⟩
  rw [ofLines, ofLines, Text.span_append_eq hfront hrest, ← List.cons_append,
    Text.span_append_eq hfront' hrest]
  simp only [Text.trim_joinLines_nil_cons]

theorem ofLines_concat_nil (hk : k.Plain) (ls : List Text) (path? : Option Text) :
    ofLines k (ls ++ [[]]) path? = ofLines k ls path? := by
  have hnil : (k.opener? []).isNone = true := by rw [Keywords.opener?_nil hk.ne_nil]; rfl
  rw [ofLines, ofLines]
  rcases Narrative.span_concat_nil (p := fun l => (k.opener? l).isNone) hnil ls with
    ⟨h₁, h₂⟩ | ⟨front, rest, h₁, -, h₂⟩
  · simp only [h₁, h₂, Text.trim_joinLines_concat_nil]
  · obtain ⟨body, hbody, h⟩ := Narrative.ofLines_concat_nil hk rest
    simp only [h₁, h₂, h]
    rcases hbody with rfl | rfl
    · rfl
    · rw [Scenario.listOfLines_concat_nil hk]

/-- Line breaks in front of a text and behind it do not change its story. -/
theorem ofText_append_breaks (hk : k.Plain) {text : Text} (hr : '\r' ∉ text) (m n : Nat)
    (path? : Option Text) :
    ofText k (List.replicate m '\n' ++ text ++ List.replicate n '\n') path? =
      ofText k text path? := by
  have hback : ofText k (text ++ List.replicate n '\n') path? = ofText k text path? := by
    induction n with
    | zero => rw [List.replicate_zero, List.append_nil]
    | succ n ih =>
      have hr' : '\r' ∉ text ++ List.replicate n '\n' := by simp [hr]
      rw [List.replicate_succ', ← List.append_assoc, ofText_eq_ofLines, ← ih, ofText_eq_ofLines]
      rcases Text.lines_append_break hr' with h | h
      · rw [h]
      · rw [h, ofLines_concat_nil hk]
  induction m with
  | zero => rw [List.replicate_zero, List.nil_append, hback]
  | succ m ih =>
    rw [List.replicate_succ, List.cons_append, List.cons_append, ofText_eq_ofLines,
      Text.lines_break_cons, ofLines_nil_cons hk, ← ofText_eq_ofLines, ih]

end Story

end PlainStory
