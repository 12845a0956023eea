import PlainStory.Decimal.Float
import PlainStory.Examples.Table
import PlainStory.Text.Quoted

/-!
# Values of arguments

An argument of a step is converted to a value of the kind that its definition declares. Values are
shown in error messages with their kind and quoted texts.
-/

namespace PlainStory

/-- The kind of value that an argument is to have. -/
inductive Kind where
  | text
  | integer
  | float
  | integerList
  | floatList
  | textList
  | table
  | custom (name : Text)
deriving DecidableEq

/-- A value of a kind that the built-in converters do not know. -/
inductive CustomValue where
  | text (s : Text)
  | integer (n : Int64)

inductive Value where
  | text (s : Text)
  | integer (n : Int64)
  | float (x : Float)
  | integers (ns : List Int64)
  | floats (xs : List Float)
  | texts (ss : List Text)
  | table (t : Table)
  | custom (v : CustomValue)

/-! ### Showing -/

/-- Items between brackets, with commas between them. -/
def Text.bracketed (opening closing : Text) (items : List Text) : Text :=
  opening ++ Text.join ", " items ++ closing

def Row.display (r : Row) : Text :=
  Text.bracketed "\x7b" "\x7d" (r.cells.map fun (c, v) => Text.quoted c ++ ": " ++ Text.quoted v)

def Table.display (t : Table) : Text :=
  "ExamplesTable \x7b headers: " ++ Text.bracketed "[" "]" (t.headers.map Text.quoted) ++
    ", rows: " ++ Text.bracketed "[" "]" (t.rows.map Row.display) ++
    ", text: " ++ Text.quoted t.text ++ " \x7d"

namespace Value

def display : Value → Text
  | text s => "Text(" ++ Text.quoted s ++ ")"
  | integer n => "Integer(" ++ Text.ofInt n.toInt ++ ")"
  | float x => "Float(" ++ Decimal.showFloat x ++ ")"
  | integers ns => Text.bracketed "Integers([" "])" (ns.map fun n => Text.ofInt n.toInt)
  | floats xs => Text.bracketed "Floats([" "])" (xs.map Decimal.showFloat)
  | texts ss => Text.bracketed "Texts([" "])" (ss.map Text.quoted)
  | table t => "Table(" ++ t.display ++ ")"
  | custom _ => "Custom(Any \x7b .. \x7d)"

/-! ### Values by kind -/

def asText? : Value → Option Text
  | text s => some s
  | _ => none

def asInteger? : Value → Option Int64
  | integer n => some n
  | _ => none

/-- A number as a floating point number; an integer is rounded to the nearest one. -/
def asFloat? : Value → Option Float
  | float x => some x
  | integer n => some n.toFloat
  | _ => none

def asTable? : Value → Option Table
  | table t => some t
  | _ => none

def asCustomText? : Value → Option Text
  | custom (.text s) => some s
  | _ => none

def asCustomInteger? : Value → Option Int64
  | custom (.integer n) => some n
  | _ => none

end Value

end PlainStory
