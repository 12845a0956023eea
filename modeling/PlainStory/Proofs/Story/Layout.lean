import PlainStory.Proofs.Story.Blocks
import PlainStory.Proofs.Text.Spacing

/-!
# The layout of a scenario

What a scenario holds, said without the scan that reads it. The lines up to the first one that opens
examples are cut in front of every line that opens a step or given stories, and each part is read by
itself. Every list of lines has one such layout, and the scenario that is read from the lines is the
one laid out in it.
-/

namespace PlainStory

namespace Scenario

variable {k : Keywords} {lines : List Text}

/-! ### Parts that are read by themselves -/

/-- The texts in lines that are separated by commas or line ends, without the blanks around them and
without the empty ones. -/
def itemsOf (lines : List Text) : List Text :=
  ((lines.flatMap (Text.splitAt ',')).map Text.trim).filter (· ≠ [])

/-- The steps of parts, one for each that begins with a line that opens a step. -/
def stepsOf (k : Keywords) (parts : List (Text × List Text)) : List Text :=
  (parts.filter fun part => k.opens .step part.1).map fun (line, later) =>
    Text.trim (Text.joinLines (line :: later))

/-- The given stories of the parts that begin with a line that opens some. -/
def givenStoriesOf (k : Keywords) (parts : List (Text × List Text)) : List Text :=
  (parts.filter fun part => k.opens .givenStories part.1).flatMap fun (line, later) =>
    itemsOf (k.withoutKeyword .givenStories line :: later)

/-- The lines of a part. -/
def linesOf (part : Text × List Text) : List Text := part.1 :: part.2

theorem pathsOf_eq_itemsOf (hne : lines ≠ []) : pathsOf lines = itemsOf lines := by
  rw [pathsOf, Text.splitAt_join_eq_flatMap ',' hne, itemsOf]

/-! ### Layouts -/

/-- A layout of lines: the lines that go to the title, the parts in front of the examples, and the part
that holds the examples, each with the line that opens it and the lines behind that one. Lines of the
title and lines behind the first one of a part open neither steps nor given stories nor examples;
what else they open does not count. -/
structure Layout (k : Keywords) (lines : List Text) where
  title : List Text
  parts : List (Text × List Text)
  examples? : Option (Text × List Text)
  eq_lines : title ++ parts.flatMap linesOf ++ examples?.toList.flatMap linesOf = lines
  title_plain : ∀ l ∈ title, k.opensWithinScenario l = false
  opens : ∀ part ∈ parts, k.opens .step part.1 = true ∨ k.opens .givenStories part.1 = true
  later_plain : ∀ part ∈ parts, ∀ l ∈ part.2, k.opensWithinScenario l = false
  opens_examples : ∀ part ∈ examples?, k.opens .examples part.1 = true

/-- The scenario that is laid out in lines behind the rest of its title line. -/
def Layout.scenario (b : Layout k lines) (title : Text) : Scenario where
  title := Text.trim (Text.joinLines (title :: b.title))
  givenStories := givenStoriesOf k b.parts
  steps := stepsOf k b.parts
  examples :=
    match b.examples? with
    | none => .empty
    | some (line, later) =>
      .ofText (Text.joinLines (k.withoutKeyword .examples line :: later))

theorem opensWithinScenario_iff {line : Text} :
    k.opensWithinScenario line = true ↔ k.opens .step line = true ∨
      k.opens .givenStories line = true ∨ k.opens .examples line = true := by
  rw [Keywords.opensWithinScenario, Keywords.opens, Keywords.opens, Keywords.opens]
  cases k.opener? line with
  | none => simp
  | some o => cases o <;> simp [Opener.isWithinScenario]

theorem opens_eq_false_of_opens {line : Text} {o o' : Opener} (h : k.opens o line = true)
    (hne : o ≠ o') : k.opens o' line = false := by
  rw [Keywords.opens, decide_eq_true_eq] at h
  rw [Keywords.opens, h]
  exact decide_eq_false fun heq => hne (Option.some.inj heq)

theorem exists_layout (k : Keywords) (lines : List Text) : Nonempty (Layout k lines) := by
  induction lines with
  | nil => exact ⟨[], [], none, rfl, List.forall_mem_nil _, List.forall_mem_nil _,
      List.forall_mem_nil _, by simp⟩
  | cons line lines ih =>
    obtain ⟨b⟩ := ih
    cases hline : k.opensWithinScenario line with
    | false =>
      exact ⟨line :: b.title, b.parts, b.examples?, congrArg (line :: ·) b.eq_lines,
        List.forall_mem_cons.2 ⟨hline, b.title_plain⟩, b.opens, b.later_plain, b.opens_examples⟩
    | true =>
      have hpart (h : k.opens .step line = true ∨ k.opens .givenStories line = true) :
          Nonempty (Layout k (line :: lines)) :=
        ⟨[], (line, b.title) :: b.parts, b.examples?, congrArg (line :: ·) b.eq_lines,
          List.forall_mem_nil _, List.forall_mem_cons.2 ⟨h, b.opens⟩,
          List.forall_mem_cons.2 ⟨b.title_plain, b.later_plain⟩, b.opens_examples⟩
      rcases opensWithinScenario_iff.1 hline with h | h | h
      · exact hpart (.inl h)
      · exact hpart (.inr h)
      · exact ⟨[], [], some (line, lines), by simp [linesOf], List.forall_mem_nil _,
          List.forall_mem_nil _, List.forall_mem_nil _, by simpa using h⟩

/-- Parts that each begin where a block starts, and have no other line where one does, are the
blocks of their lines. -/
theorem blocksAt_flatMap_linesOf {p : Text → Bool} {parts : List (Text × List Text)}
    (hopens : ∀ part ∈ parts, p part.1 = true) (hlater : ∀ part ∈ parts, ∀ l ∈ part.2, p l = false) :
    blocksAt p (parts.flatMap linesOf) = ([], parts) := by
  induction parts with
  | nil => rfl
  | cons part parts ih =>
    obtain ⟨hopen, hopens⟩ := List.forall_mem_cons.1 hopens
    obtain ⟨hown, hlater⟩ := List.forall_mem_cons.1 hlater
    have ih := ih hopens hlater
    have hnil : (blocksAt p (parts.flatMap linesOf)).1 = [] := by rw [ih]
    rw [List.flatMap_cons, linesOf, List.cons_append, blocksAt_block hopen hown hnil, ih]

namespace Layout

theorem within (b : Layout k lines) {part : Text × List Text} (h : part ∈ b.parts) :
    k.opensWithinScenario part.1 = true := by
  refine opensWithinScenario_iff.2 ?_
  rcases b.opens part h with h | h
  · exact .inl h
  · exact .inr (.inl h)

/-- The lines in front of the examples are those in front of the first line that opens examples. -/
theorem exists_span (b : Layout k lines) :
    (lines.takeWhile fun l => !k.opens .examples l) = b.title ++ b.parts.flatMap linesOf ∧
      (lines.dropWhile fun l => !k.opens .examples l) = b.examples?.toList.flatMap linesOf := by
  have hplain : ∀ l, k.opensWithinScenario l = false → (!k.opens .examples l) = true := by
    intro l hl
    rw [Bool.not_eq_true', ← Bool.not_eq_true]
    intro h
    rw [opensWithinScenario_iff.2 (.inr (.inr h))] at hl
    exact absurd hl nofun
  have hfront : ∀ l ∈ b.title ++ b.parts.flatMap linesOf, (!k.opens .examples l) = true := by
    refine List.forall_mem_append.2 ⟨fun l hl => hplain l (b.title_plain l hl), fun l hl => ?_⟩
    obtain ⟨part, hpart, hl⟩ := List.mem_flatMap.1 hl
    rcases List.mem_cons.1 hl with rfl | hl
    · rw [Bool.not_eq_true']
      rcases b.opens part hpart with h | h
      · exact opens_eq_false_of_opens h (by decide)
      · exact opens_eq_false_of_opens h (by decide)
    · exact hplain l (b.later_plain part hpart l hl)
  have hback : ∀ l ∈ (b.examples?.toList.flatMap linesOf).head?, (!k.opens .examples l) = false := by
    intro l hl
    cases he : b.examples? with
    | none => rw [he] at hl; exact absurd hl nofun
    | some part =>
      rw [he] at hl
      obtain rfl : part.1 = l := Option.some.inj hl
      rw [b.opens_examples part he, Bool.not_true]
  have htake := Text.takeWhile_append_eq hfront hback
  have hdrop := Text.dropWhile_append_eq hfront hback
  rw [b.eq_lines] at htake hdrop
  exact ⟨htake, hdrop⟩

theorem blocksAt_front (b : Layout k lines) :
    blocksAt k.opensWithinScenario (lines.takeWhile fun l => !k.opens .examples l) =
      (b.title, b.parts) := by
  rw [b.exists_span.1, blocksAt_append b.title_plain,
    blocksAt_flatMap_linesOf (fun _ => b.within) b.later_plain, List.append_nil]

theorem examples_eq (b : Layout k lines) :
    b.examples? = match lines.dropWhile fun l => !k.opens .examples l with
      | [] => none
      | line :: later => some (line, later) := by
  rw [b.exists_span.2]
  cases b.examples? with
  | none => rfl
  | some part => simp [linesOf]

instance : Subsingleton (Layout k lines) := by
  refine ⟨fun b c => ?_⟩
  have hfront := b.blocksAt_front.symm.trans c.blocksAt_front
  have hexamples := b.examples_eq.trans c.examples_eq.symm
  cases b
  cases c
  simp_all

end Layout

/-! ### What is read -/

open Draft

theorem adds_parts {parts : List (Text × List Text)}
    (hopens : ∀ part ∈ parts, k.opens .step part.1 = true ∨ k.opens .givenStories part.1 = true)
    (hlater : ∀ part ∈ parts, ∀ l ∈ part.2, k.opensWithinScenario l = false) :
    Adds k (parts.flatMap linesOf) fun s =>
      { s with
        givenStories := s.givenStories ++ givenStoriesOf k parts
        steps := s.steps ++ stepsOf k parts } := by
  induction parts with
  | nil => exact adds_nil fun s => by simp [givenStoriesOf, stepsOf]
  | cons part parts ih =>
    obtain ⟨line, later⟩ := part
    obtain ⟨hopen, hopens⟩ := List.forall_mem_cons.1 hopens
    obtain ⟨hown, hlater⟩ := List.forall_mem_cons.1 hlater
    have ih := ih hopens hlater
    rw [List.flatMap_cons]
    rcases hopen with hstep | hgiven
    · have hno : k.opens .givenStories line = false := opens_eq_false_of_opens hstep (by decide)
      have hadds := (adds_step (of_decide_eq_true hstep) hown).append ih
      simp only [Text.trim_joinLines_trimStart] at hadds
      simpa [Function.comp_def, givenStoriesOf, stepsOf, linesOf, hstep, hno] using hadds
    · have hno : k.opens .step line = false := opens_eq_false_of_opens hgiven (by decide)
      have hadds := (adds_givenStories (of_decide_eq_true hgiven) hown).append ih
      rw [pathsOf_eq_itemsOf (List.cons_ne_nil _ _)] at hadds
      simpa [Function.comp_def, givenStoriesOf, stepsOf, linesOf, hgiven, hno] using hadds

theorem Layout.ofLines_eq (b : Layout k lines) (title : Text) :
    ofLines k title lines = b.scenario title := by
  let d : Draft := { part := .title, lines := title :: b.title }
  have hd : d.part ≠ .examples := nofun
  have hadds := adds_parts b.opens b.later_plain
  have hclose := hadds.close d hd
  have hfront : addLines k { part := .title, lines := [title] } b.title = d :=
    addLines_of_opensWithinScenario b.title_plain
  have hlines : addLines k { part := .title, lines := [title] } lines =
      (d.addLines k (b.parts.flatMap linesOf)).addLines k (b.examples?.toList.flatMap linesOf) := by
    conv_lhs => rw [← b.eq_lines, addLines_append, addLines_append, hfront]
  rw [Scenario.ofLines_eq, hlines, Layout.scenario]
  cases he : b.examples? with
  | none => exact hclose
  | some part =>
    have hline : k.opener? part.1 = some .examples := of_decide_eq_true (b.opens_examples part he)
    have hall := close_addLines_examples (hadds.part d hd) hline part.2
    have hpart : (some part).toList.flatMap linesOf = part.1 :: part.2 := by simp [linesOf]
    rw [hpart, hall, hclose]
    rfl

/-- A scenario is read as it is laid out, and its lines have one layout. -/
theorem ofLines_layout (k : Keywords) (title : Text) (lines : List Text) :
    ∃ b : Layout k lines, (∀ other : Layout k lines, other = b) ∧
      ofLines k title lines = b.scenario title := by
  obtain ⟨b⟩ := exists_layout k lines
  exact ⟨b, fun other => Subsingleton.elim other b, b.ofLines_eq title⟩

end Scenario

end PlainStory
