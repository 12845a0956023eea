import PlainStory.Argument.Value

/-!
# Contexts of steps

A step handler sees the text of the step, its arguments, and the row of examples that it runs for.
Asking for an argument of another kind than it has is an error that names both.
-/

namespace PlainStory

structure Argument where
  /-- The name of the placeholder, empty for an argument that has none. -/
  name : Text
  raw : Text
  value : Value

structure Context where
  step : Text
  args : List Argument
  row : Option Row

/-- Why an argument is not available in the form asked for. -/
inductive ArgumentError where
  | missing (step : Text) (index : Nat)
  | unexpected (name step expected shown : Text)
deriving DecidableEq

def ArgumentError.message : ArgumentError → Text
  | missing step index => "step `" ++ step ++ "` has no argument #" ++ Text.ofNat index
  | unexpected name step expected shown =>
    "argument `" ++ name ++ "` of step `" ++ step ++ "` is not " ++ expected ++ ": " ++ shown

namespace Context

def value? (c : Context) (index : Nat) : Option Value := c.args[index]?.map Argument.value

def raw? (c : Context) (index : Nat) : Option Text := c.args[index]?.map Argument.raw

/-- The value of the first argument with the given name. -/
def named? (c : Context) (name : Text) : Option Value :=
  (c.args.find? (·.name = name)).map Argument.value

def rowValue? (c : Context) (column : Text) : Option Text := c.row.bind (·.get? column)

/-- The argument at an index in the form that `view` gives. -/
def typed {α : Type} (c : Context) (index : Nat) (expected : Text) (view : Value → Option α) :
    Except ArgumentError α :=
  match c.args[index]? with
  | none => .error (.missing c.step index)
  | some a =>
    match view a.value with
    | none => .error (.unexpected a.name c.step expected a.value.display)
    | some x => .ok x

def text (c : Context) (index : Nat) : Except ArgumentError Text :=
  c.typed index "text" Value.asText?

def integer (c : Context) (index : Nat) : Except ArgumentError Int64 :=
  c.typed index "integer" Value.asInteger?

def float (c : Context) (index : Nat) : Except ArgumentError Float :=
  c.typed index "float" Value.asFloat?

def table (c : Context) (index : Nat) : Except ArgumentError Table :=
  c.typed index "table" Value.asTable?

def customText (c : Context) (index : Nat) : Except ArgumentError Text :=
  c.typed index "alloc::string::String" Value.asCustomText?

def customInteger (c : Context) (index : Nat) : Except ArgumentError Int64 :=
  c.typed index "i64" Value.asCustomInteger?

end Context

end PlainStory
