import PlainStory.Examples.Table

/-!
# Stories

A story has a description, a narrative that says what it is for, and scenarios. A scenario has a
title, the stories that have to be run before it, its steps, and a table of examples that runs the
steps once for each row.
-/

namespace PlainStory

/-- The purpose of a story, in the form "in order to, as a, i want to" or in the form "as a, i want
to, so that"; the clause that a form lacks is empty. -/
structure Narrative where
  inOrderTo : Text := []
  asA : Text := []
  iWantTo : Text := []
  soThat : Text := []
deriving DecidableEq

namespace Narrative

/-- The narrative of a story that has none. -/
def empty : Narrative := {}

def withPurpose (inOrderTo asA iWantTo : Text) : Narrative := { inOrderTo, asA, iWantTo }

def withBenefit (asA iWantTo soThat : Text) : Narrative := { asA, iWantTo, soThat }

def isEmpty (n : Narrative) : Bool := n = empty

/-- Whether a narrative closes with its benefit instead of opening with its purpose. -/
def isWithBenefit (n : Narrative) : Bool := n.soThat ≠ []

end Narrative

structure Scenario where
  title : Text := []
  /-- The paths of the stories to run before the steps. -/
  givenStories : List Text := []
  steps : List Text := []
  examples : Table := .empty
deriving DecidableEq

structure Story where
  path? : Option Text := none
  description : Text := []
  narrative : Narrative := .empty
  scenarios : List Scenario := []
deriving DecidableEq

/-- The path of a story, empty where it has none. -/
def Story.path (s : Story) : Text := s.path?.getD []

end PlainStory
