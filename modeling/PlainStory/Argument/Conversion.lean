import PlainStory.Argument.Value

/-!
# Conversion

Converters turn the raw text of an argument into a value of a kind. Of a chain of converters the first
one that accepts the kind is used. Registered converters stand before the built-in ones in the order
of their registration. A kind that no converter accepts gives the raw text with its line breaks
normalised.
-/

namespace PlainStory

/-- A raw text that does not represent a value of the kind asked for. -/
structure InvalidParameter where
  value : Text
  cause : Text
deriving DecidableEq

def InvalidParameter.message (e : InvalidParameter) : Text :=
  "Unable to convert `" ++ e.value ++ "`: " ++ e.cause

structure Converter where
  accepts : Kind → Bool
  convert : Text → Kind → Except InvalidParameter Value

/-- The converter for a custom kind that a function gives, which fails with a cause. -/
def Converter.custom (name : Text) (f : Text → Except Text CustomValue) : Converter where
  accepts k := k = .custom name
  convert raw _ :=
    match f raw with
    | .ok v => .ok (.custom v)
    | .error cause => .error ⟨raw, cause⟩

namespace Conversion

/-! ### Built-in converters -/

def integer (raw : Text) : Except InvalidParameter Int64 :=
  (Decimal.integer? (Text.trim raw)).mapError fun e => ⟨raw, e.message⟩

def float (raw : Text) : Except InvalidParameter Float :=
  (Decimal.float? (Text.trim raw)).mapError fun e => ⟨raw, e.message⟩

/-- The trimmed elements of a list; a blank text has none. -/
def elements (separator raw : Text) : List Text :=
  if Text.blank raw then [] else (Text.splitBy separator raw).map Text.trim

/-- Converts one element after another, up to the first that fails. -/
def convertAll {α : Type} (f : Text → Except InvalidParameter α) :
    List Text → Except InvalidParameter (List α)
  | [] => .ok []
  | s :: ss =>
    match f s with
    | .error e => .error e
    | .ok a => (convertAll f ss).map (a :: ·)

def number : Converter where
  accepts k := k = .integer || k = .float
  convert raw k :=
    if k = .integer then (integer raw).map .integer else (float raw).map .float

def numberList (separator : Text) : Converter where
  accepts k := k = .integerList || k = .floatList
  convert raw k :=
    if k = .integerList then (convertAll integer (elements separator raw)).map .integers
    else (convertAll float (elements separator raw)).map .floats

def textList (separator : Text) : Converter where
  accepts k := k = .textList
  convert raw _ := .ok (.texts (elements separator raw))

def table : Converter where
  accepts k := k = .table
  convert raw _ := .ok (.table (.ofText raw))

def builtIn (separator : Text) : List Converter :=
  [number, numberList separator, textList separator, table]

end Conversion

/-- The separator of list elements where none is chosen. -/
def defaultSeparator : Text := ","

/-- The converters that arguments go through. -/
structure Converters where
  separator : Text := defaultSeparator
  /-- The converters in the order in which they are asked. -/
  chain : List Converter := Conversion.builtIn separator
  /-- The number of registered converters, which head the chain. -/
  registered : Nat := 0
  /-- Behind the registered converters stand the built-in ones. -/
  drop_registered : chain.drop registered = Conversion.builtIn separator := by rfl

namespace Converters

theorem registered_le (cs : Converters) : cs.registered ≤ cs.chain.length := by
  have hlen : cs.chain.length - cs.registered = 4 := by
    rw [← List.length_drop, cs.drop_registered]
    rfl
  omega

theorem take_append_builtIn (cs : Converters) :
    cs.chain.take cs.registered ++ Conversion.builtIn cs.separator = cs.chain := by
  rw [← cs.drop_registered, List.take_append_drop]

theorem length_take_registered (cs : Converters) :
    (cs.chain.take cs.registered).length = cs.registered := by
  rw [List.length_take, Nat.min_eq_left cs.registered_le]

theorem insertIdx_length_append {α : Type} (front rest : List α) (x : α) :
    (front ++ rest).insertIdx front.length x = front ++ x :: rest := by
  induction front with
  | nil => rfl
  | cons y ys ih =>
    rw [List.cons_append, List.length_cons, List.insertIdx_succ_cons, ih, List.cons_append]

/-- A converter is registered behind the registered ones and in front of the built-in ones. -/
theorem insertIdx_registered (cs : Converters) (c : Converter) :
    cs.chain.insertIdx cs.registered c =
      cs.chain.take cs.registered ++ c :: Conversion.builtIn cs.separator := by
  have h := insertIdx_length_append (cs.chain.take cs.registered)
    (Conversion.builtIn cs.separator) c
  rwa [cs.take_append_builtIn, cs.length_take_registered] at h

def register (cs : Converters) (c : Converter) : Converters where
  separator := cs.separator
  chain := cs.chain.insertIdx cs.registered c
  registered := cs.registered + 1
  drop_registered := by
    rw [cs.insertIdx_registered, List.append_cons]
    exact List.drop_left' (by simp [cs.length_take_registered])

def convert (cs : Converters) (raw : Text) (k : Kind) : Except InvalidParameter Value :=
  match cs.chain.find? (·.accepts k) with
  | some c => c.convert raw k
  | none => .ok (.text (Text.unixBreaks raw))

end Converters

end PlainStory
