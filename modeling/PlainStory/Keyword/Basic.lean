import PlainStory.Text.Basic

/-!
# Keywords

The places in a story text and in a report where a language-dependent token stands, and the table
that gives the token of each. A table is complete by its type; building one from a list of pairs
fails at the first keyword, in canonical order, that the list does not name.
-/

namespace PlainStory

/-- The type of a step: what is set up, what is done, what is expected. -/
inductive StepType where
  | precondition
  | action
  | outcome
deriving DecidableEq, Hashable

def StepType.name : StepType → Text
  | precondition => "Given"
  | action => "When"
  | outcome => "Then"

inductive Keyword where
  | narrative
  | inOrderTo
  | asA
  | iWantTo
  | soThat
  | scenario
  | givenStories
  | examples
  | precondition
  | action
  | outcome
  | continuation
  | comment
  | pending
  | notPerformed
  | failed
  | exampleRow
deriving DecidableEq

namespace Keyword

/-- All keywords in canonical order. -/
def all : List Keyword :=
  [narrative, inOrderTo, asA, iWantTo, soThat, scenario, givenStories, examples, precondition,
    action, outcome, continuation, comment, pending, notPerformed, failed, exampleRow]

theorem mem_all (k : Keyword) : k ∈ all := by cases k <;> decide

def name : Keyword → Text
  | narrative => "Narrative"
  | inOrderTo => "InOrderTo"
  | asA => "AsA"
  | iWantTo => "IWantTo"
  | soThat => "SoThat"
  | scenario => "Scenario"
  | givenStories => "GivenStories"
  | examples => "ExamplesTable"
  | precondition => "Given"
  | action => "When"
  | outcome => "Then"
  | continuation => "And"
  | comment => "Ignorable"
  | pending => "Pending"
  | notPerformed => "NotPerformed"
  | failed => "Failed"
  | exampleRow => "ExamplesTableRow"

def english : Keyword → Text
  | narrative => "Narrative:"
  | inOrderTo => "In order to"
  | asA => "As a"
  | iWantTo => "I want to"
  | soThat => "So that"
  | scenario => "Scenario:"
  | givenStories => "GivenStories:"
  | examples => "Examples:"
  | precondition => "Given"
  | action => "When"
  | outcome => "Then"
  | continuation => "And"
  | comment => "!--"
  | pending => "PENDING"
  | notPerformed => "NOT PERFORMED"
  | failed => "FAILED"
  | exampleRow => "Example:"

end Keyword

/-- A keyword that a table of tokens does not name. -/
structure MissingKeyword where
  keyword : Keyword
deriving DecidableEq

def MissingKeyword.message (e : MissingKeyword) : Text :=
  "Keyword `" ++ e.keyword.name ++ "` is missing from the keywords table"

/-- The token of every keyword. -/
structure Keywords where
  token : Keyword → Text

namespace Keywords

def english : Keywords := ⟨Keyword.english⟩

/-- The table of the given pairs, of which a later one replaces an earlier one of its keyword. -/
def ofPairs? (pairs : List (Keyword × Text)) : Except MissingKeyword Keywords :=
  let table := pairs.reverse
  match Keyword.all.find? fun k => (table.lookup k).isNone with
  | some k => .error ⟨k⟩
  | none => .ok ⟨fun k => (table.lookup k).getD []⟩

/-- Whether two tables have the same tokens. -/
def same (k l : Keywords) : Bool := Keyword.all.all fun w => k.token w = l.token w

theorem same_iff {k l : Keywords} : k.same l = true ↔ k = l := by
  constructor
  · intro h
    have : k.token = l.token := by
      funext w
      simpa using List.all_eq_true.1 h w (Keyword.mem_all w)
    cases k
    cases l
    simp_all
  · rintro rfl
    simp [same]

end Keywords

end PlainStory
