import PlainStory.Keyword.Basic
import PlainStory.Pattern.Match
import PlainStory.Pattern.Variants
import PlainStory.Step.Context
import PlainStory.Step.Handler

/-!
# Step definitions

A definition gives the patterns of a step and its handler. Each variant of each of its patterns is a
candidate for the steps of a story. Invoking a candidate converts the raw arguments by their position
and then calls the handler, unless an argument does not convert.
-/

namespace PlainStory

structure Definition (W : Type) where
  type : StepType
  pattern : Text
  aliases : List Text := []
  /-- A candidate of higher priority is preferred. -/
  priority : Int := 0
  /-- The kinds of the arguments by position; an argument beyond them is a text. -/
  kinds : List Kind := []
  handler : W → Context → HandlerResult × W

namespace Definition

variable {W : Type}

/-- The main pattern and then the aliases. -/
def patterns (d : Definition W) : List Text := d.pattern :: d.aliases

/-- All variants of all patterns in their order. -/
def variants (d : Definition W) : List Text := d.patterns.flatMap Variants.expand

end Definition

/-- A step definition with one of its patterns. -/
structure Candidate (W : Type) where
  type : StepType
  pattern : Pattern
  priority : Int
  kinds : List Kind
  /-- The place among the candidates of the same registry. -/
  order : Nat
  handler : W → Context → HandlerResult × W

namespace Candidate

variable {W : Type}

def kindAt (c : Candidate W) (index : Nat) : Kind := c.kinds[index]?.getD .text

def nameAt (c : Candidate W) (index : Nat) : Text := c.pattern.names[index]?.getD []

/-- Converts raw arguments, the first of which has the given index. -/
def argumentsFrom (c : Candidate W) (cs : Converters) :
    Nat → List Text → Except InvalidParameter (List Argument)
  | _, [] => .ok []
  | i, raw :: raws =>
    match cs.convert raw (c.kindAt i) with
    | .error e => .error e
    | .ok value => (c.argumentsFrom cs (i + 1) raws).map (⟨c.nameAt i, raw, value⟩ :: ·)

/-- The context in which the handler is called, if all arguments convert. -/
def context? (c : Candidate W) (cs : Converters) (step : Text) (raws : List Text)
    (row : Option Row) : Except InvalidParameter Context :=
  (c.argumentsFrom cs 0 raws).map fun args => ⟨step, args, row⟩

/-- Calls the handler, with its failure if there is one and the world it leaves. -/
def call (c : Candidate W) (context : Context) (w : W) : Option Failure × W :=
  let (result, w) := c.handler w context
  (result.failure? context.step, w)

/-- Converts the raw arguments and calls the handler if all of them convert. -/
def invoke (c : Candidate W) (cs : Converters) (step : Text) (raws : List Text) (row : Option Row)
    (w : W) : Option Failure × W :=
  match c.context? cs step raws row with
  | .error e => (some (.invalidParameter e), w)
  | .ok context => c.call context w

end Candidate

end PlainStory
