import Mathlib.Data.List.Infix
import PlainStory.Proofs.Story.Breaks

/-!
# Writing stories

The canonical text of a story with the English keywords, written part after part on new lines, and what
it takes for a story to be read back from it: no part may hold a line that would open another part, and
no clause of a narrative the word of another clause.
-/

namespace PlainStory

/-! ### Written stories -/

/-- What a scenario is written from. -/
structure ScenarioText where
  title : Text
  givenStories : List Text
  steps : List Text
  /-- The text of the table of examples. -/
  examples? : Option Text

/-- What a narrative is written from: nothing, its keyword alone, or the clauses of a form. -/
inductive NarrativeText where
  | absent
  | bare
  | purpose (inOrderTo asA iWantTo : Text)
  | benefit (asA iWantTo soThat : Text)

/-- What a story is written from. -/
structure StoryText where
  description : Text
  narrative : NarrativeText
  scenarios : List ScenarioText

/-- A text behind its keyword. -/
def Keyword.write (w : Keyword) (s : Text) : Text := w.english ++ ' ' :: s

namespace ScenarioText

def scenario (s : ScenarioText) : Scenario where
  title := s.title
  givenStories := s.givenStories
  steps := s.steps
  examples := (s.examples?.map Table.ofText).getD .empty

def givenStoriesParts (s : ScenarioText) : List Text :=
  if s.givenStories = [] then [] else [Keyword.givenStories.write (Text.join ", " s.givenStories)]

def examplesParts (s : ScenarioText) : List Text :=
  match s.examples? with
  | none => []
  | some text => [Keyword.examples.english, text]

/-- The parts of a scenario, to be written on new lines one after another. -/
def parts (s : ScenarioText) : List Text :=
  Keyword.scenario.write s.title :: (s.givenStoriesParts ++ s.steps ++ s.examplesParts)

end ScenarioText

namespace NarrativeText

def narrative : NarrativeText → Narrative
  | absent | bare => .empty
  | purpose inOrderTo asA iWantTo => .withPurpose inOrderTo asA iWantTo
  | benefit asA iWantTo soThat => .withBenefit asA iWantTo soThat

/-- The clauses with their keywords. -/
def clauses : NarrativeText → List (Keyword × Text)
  | absent | bare => []
  | purpose inOrderTo asA iWantTo =>
    [(.inOrderTo, inOrderTo), (.asA, asA), (.iWantTo, iWantTo)]
  | benefit asA iWantTo soThat => [(.asA, asA), (.iWantTo, iWantTo), (.soThat, soThat)]

def parts : NarrativeText → List Text
  | absent => []
  | n => Keyword.narrative.english :: n.clauses.map fun (w, c) => w.write c

end NarrativeText

namespace StoryText

def story (s : StoryText) (path? : Option Text) : Story where
  path?
  description := s.description
  narrative := s.narrative.narrative
  scenarios := s.scenarios.map ScenarioText.scenario

def descriptionParts (s : StoryText) : List Text :=
  if s.description = [] then [] else [s.description]

def parts (s : StoryText) : List Text :=
  s.descriptionParts ++ s.narrative.parts ++ s.scenarios.flatMap ScenarioText.parts

/-- The text of a story. -/
def write (s : StoryText) : Text := Text.joinLines s.parts

end StoryText

/-! ### What can be read back -/

namespace Text

/-- A text whose lines open nothing. -/
def OpensNothing (s : Text) : Prop := ∀ l ∈ splitAt '\n' s, Keywords.english.opener? l = none

/-- A text whose lines after the first open nothing. -/
def ContinuesOnly (s : Text) : Prop :=
  ∀ l ∈ (splitAt '\n' s).tail, Keywords.english.opener? l = none

/-- A text that can be the path in a list of given stories. -/
structure IsPath (s : Text) : Prop where
  trim : Text.trim s = s
  ne_nil : s ≠ []
  no_comma : ',' ∉ s
  no_break : '\n' ∉ s

/-- A text that can be a clause of a narrative. -/
structure IsClause (s : Text) : Prop where
  trim : Text.trim s = s
  lines : OpensNothing s
  words : ∀ w ∈ [Keyword.inOrderTo, .asA, .iWantTo, .soThat], ¬ w.english <:+: s

/-- A text that can be a step. -/
structure IsStep (s : Text) : Prop where
  trim : Text.trim s = s
  first : ∀ l ∈ (splitAt '\n' s).head?, Keywords.english.startsStep l = true
  later : ContinuesOnly s

instance (s : Text) : Decidable (OpensNothing s) :=
  inferInstanceAs (Decidable (∀ l ∈ splitAt '\n' s, Keywords.english.opener? l = none))

instance (s : Text) : Decidable (ContinuesOnly s) :=
  inferInstanceAs (Decidable (∀ l ∈ (splitAt '\n' s).tail, Keywords.english.opener? l = none))

instance (s : Text) : Decidable (IsPath s) :=
  decidable_of_iff (Text.trim s = s ∧ s ≠ [] ∧ ',' ∉ s ∧ '\n' ∉ s)
    ⟨fun ⟨h₁, h₂, h₃, h₄⟩ => ⟨h₁, h₂, h₃, h₄⟩, fun ⟨h₁, h₂, h₃, h₄⟩ => ⟨h₁, h₂, h₃, h₄⟩⟩

instance (s : Text) : Decidable (IsClause s) :=
  decidable_of_iff (Text.trim s = s ∧ OpensNothing s ∧
      ∀ w ∈ [Keyword.inOrderTo, .asA, .iWantTo, .soThat], ¬ w.english <:+: s)
    ⟨fun ⟨h₁, h₂, h₃⟩ => ⟨h₁, h₂, h₃⟩, fun ⟨h₁, h₂, h₃⟩ => ⟨h₁, h₂, h₃⟩⟩

instance (s : Text) : Decidable (IsStep s) :=
  decidable_of_iff (Text.trim s = s ∧
      (∀ l ∈ (splitAt '\n' s).head?, Keywords.english.startsStep l = true) ∧ ContinuesOnly s)
    ⟨fun ⟨h₁, h₂, h₃⟩ => ⟨h₁, h₂, h₃⟩, fun ⟨h₁, h₂, h₃⟩ => ⟨h₁, h₂, h₃⟩⟩

end Text

/-- Scenarios that can be read back. -/
structure ScenarioText.IsReadable (s : ScenarioText) : Prop where
  title_trim : Text.trim s.title = s.title
  title_later : Text.ContinuesOnly s.title
  givenStories : ∀ path ∈ s.givenStories, Text.IsPath path
  steps : ∀ step ∈ s.steps, Text.IsStep step
  examples : ∀ text ∈ s.examples?, ∀ l ∈ Text.splitAt '\n' text,
    Keywords.english.opener? l ≠ some .scenario

instance (s : ScenarioText) : Decidable s.IsReadable :=
  decidable_of_iff (Text.trim s.title = s.title ∧ Text.ContinuesOnly s.title ∧
      (∀ path ∈ s.givenStories, Text.IsPath path) ∧ (∀ step ∈ s.steps, Text.IsStep step) ∧
      ∀ text ∈ s.examples?, ∀ l ∈ Text.splitAt '\n' text,
        Keywords.english.opener? l ≠ some .scenario)
    ⟨fun ⟨h₁, h₂, h₃, h₄, h₅⟩ => ⟨h₁, h₂, h₃, h₄, h₅⟩,
      fun ⟨h₁, h₂, h₃, h₄, h₅⟩ => ⟨h₁, h₂, h₃, h₄, h₅⟩⟩

/-- Stories that can be read back. -/
structure StoryText.IsReadable (s : StoryText) : Prop where
  no_return : ∀ part ∈ s.parts, '\r' ∉ part
  description_trim : Text.trim s.description = s.description
  description_lines : Text.OpensNothing s.description
  narrative : ∀ clause ∈ s.narrative.clauses, Text.IsClause clause.2
  scenarios : ∀ scenario ∈ s.scenarios, scenario.IsReadable

instance (s : StoryText) : Decidable s.IsReadable :=
  decidable_of_iff ((∀ part ∈ s.parts, '\r' ∉ part) ∧ Text.trim s.description = s.description ∧
      Text.OpensNothing s.description ∧ (∀ clause ∈ s.narrative.clauses, Text.IsClause clause.2) ∧
      ∀ scenario ∈ s.scenarios, scenario.IsReadable)
    ⟨fun ⟨h₁, h₂, h₃, h₄, h₅⟩ => ⟨h₁, h₂, h₃, h₄, h₅⟩,
      fun ⟨h₁, h₂, h₃, h₄, h₅⟩ => ⟨h₁, h₂, h₃, h₄, h₅⟩⟩

/-! ### Lines of parts -/

namespace Text

/-- The lines of parts that are written on new lines one after another. -/
def linesOf (parts : List Text) : List Text := parts.flatMap (splitAt '\n')

@[simp] theorem linesOf_nil : linesOf [] = [] := rfl

theorem linesOf_cons (part : Text) (parts : List Text) :
    linesOf (part :: parts) = splitAt '\n' part ++ linesOf parts := by
  rw [linesOf, List.flatMap_cons, linesOf]

theorem linesOf_append (ps qs : List Text) : linesOf (ps ++ qs) = linesOf ps ++ linesOf qs := by
  rw [linesOf, List.flatMap_append, linesOf, linesOf]

theorem linesOf_singleton (part : Text) : linesOf [part] = splitAt '\n' part := by
  rw [linesOf_cons, linesOf_nil, List.append_nil]

theorem joinLines_linesOf (parts : List Text) : joinLines (linesOf parts) = joinLines parts :=
  joinLines_flatMap_splitAt parts

/-- The first line of a text and the others. -/
theorem exists_splitAt_eq_cons (s : Text) :
    ∃ l ls, splitAt '\n' s = l :: ls ∧ joinLines (l :: ls) = s := by
  obtain ⟨l, ls, h⟩ := List.exists_cons_of_ne_nil (splitAt_ne_nil '\n' s)
  exact ⟨l, ls, h, by rw [← h, joinLines_splitAt]⟩

end Text

namespace Keyword

theorem splitAt_english (w : Keyword) : Text.splitAt '\n' w.english = [w.english] :=
  Text.splitAt_of_not_mem (Keywords.plain_english.no_break w)

theorem newline_not_mem_write (w : Keyword) : '\n' ∉ w.english ++ [' '] := by cases w <;> decide

/-- The lines of a text behind its keyword are those of the text, the first one behind the keyword. -/
theorem splitAt_write (w : Keyword) {s l : Text} {ls : List Text}
    (h : Text.splitAt '\n' s = l :: ls) : Text.splitAt '\n' (w.write s) = w.write l :: ls := by
  have hw := Text.splitAt_append_of_not_mem w.newline_not_mem_write h
  simpa only [List.append_assoc, List.singleton_append, write] using hw

end Keyword

/-! ### Openers of written lines -/

namespace Keywords

theorem opener?_write_givenStories (s : Text) :
    english.opener? (Keyword.givenStories.write s) = some .givenStories := rfl

theorem opener?_write_clause {w : Keyword} (hw : w ∈ [Keyword.inOrderTo, .asA, .iWantTo, .soThat])
    (s : Text) : english.opener? (w.write s) = none := by
  simp only [List.mem_cons, List.not_mem_nil, or_false] at hw
  rcases hw with rfl | rfl | rfl | rfl <;> rfl

theorem exists_of_startsStep {line : Text} (h : english.startsStep line = true) :
    ∃ w ∈ [Keyword.precondition, .action, .outcome, .continuation, .comment], ∃ rest,
      Text.trimStart line = w.english ++ rest ∧ (w ≠ .comment → atWordEnd rest = true) := by
  rcases Bool.or_eq_true_iff.1 h with h | h
  · obtain ⟨word, hword⟩ := Option.isSome_iff_exists.1 h
    have hmem := List.mem_of_find?_eq_some hword
    have hbegins := List.find?_some hword
    rw [beginsWith] at hbegins
    split at hbegins
    · next rest hrest =>
      obtain ⟨w, hw, rfl⟩ := List.mem_map.1 hmem
      exact ⟨w, List.mem_append_left [Keyword.comment] hw, rest,
        Text.after?_eq_some_iff.1 hrest, fun _ => hbegins⟩
    · cases hbegins
  · obtain ⟨rest, hrest⟩ := Text.startsWith_iff.1 h
    exact ⟨.comment, by simp, rest, hrest, absurd rfl⟩

/-- A line that starts a step opens a step. -/
theorem opener?_of_startsStep {line : Text} (h : english.startsStep line = true) :
    english.opener? line = some .step := by
  obtain ⟨w, hw, rest, hline, hend⟩ := exists_of_startsStep h
  -- One starting word is the start of another keyword, which goes on with a letter.
  have hgiven : atWordEnd rest = true →
      Text.startsWith Keyword.givenStories.english (Keyword.precondition.english ++ rest) =
        false := by
    intro hrest
    cases rest with
    | nil => rfl
    | cons c cs =>
      have hc : 'S' ≠ c := by
        rintro rfl
        exact absurd hrest (show ¬ Text.isBlank 'S' = true by decide)
      show (if 'S' = c then _ else none).isSome = false
      rw [if_neg hc]
      rfl
  have hno : ∀ v ∈ [Keyword.scenario, .narrative, .givenStories, .examples],
      Text.startsWith (english.token v) (Text.trimStart line) = false := by
    intro v hv
    rw [hline]
    simp only [List.mem_cons, List.not_mem_nil, or_false] at hv hw
    rcases hv with rfl | rfl | rfl | rfl <;> rcases hw with rfl | rfl | rfl | rfl | rfl <;>
      first | rfl | exact hgiven (hend nofun)
  have hstep := (startsStep_trimStart line).trans h
  simp only [opener?, hno .scenario (by simp), hno .narrative (by simp),
    hno .givenStories (by simp), hno .examples (by simp), hstep, Bool.false_eq_true, if_false,
    if_true]

end Keywords

end PlainStory
