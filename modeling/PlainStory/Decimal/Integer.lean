import PlainStory.Text.Basic

/-!
# Integers in decimal

Reading a 64-bit integer from a text: an optional sign and at least one digit. A numeral out of range
is refused at the first digit with which it leaves the range.
-/

namespace PlainStory

/-- Why a text is no numeral of a 64-bit integer. -/
inductive IntegerError where
  | empty
  | invalidDigit
  | tooLarge
  | tooSmall
deriving DecidableEq

def IntegerError.message : IntegerError → Text
  | empty => "cannot parse integer from empty string"
  | invalidDigit => "invalid digit found in string"
  | tooLarge => "number too large to fit in target type"
  | tooSmall => "number too small to fit in target type"

namespace Decimal

def digit? (c : Char) : Option Nat :=
  if '0' ≤ c ∧ c ≤ '9' then some (c.toNat - '0'.toNat) else none

/-- Goes on from the value of the digits before; `sign` is 1 or -1. -/
def integerFrom (sign : Int) (value : Int) : Text → Except IntegerError Int
  | [] => .ok value
  | c :: cs =>
    match digit? c with
    | none => .error .invalidDigit
    | some d =>
      let value := value * 10 + sign * d
      if value < Int64.minValue.toInt then .error .tooSmall
      else if Int64.maxValue.toInt < value then .error .tooLarge
      else integerFrom sign value cs

def integerDigits (sign : Int) : Text → Except IntegerError Int
  | [] => .error .invalidDigit
  | cs => integerFrom sign 0 cs

def integer? : Text → Except IntegerError Int64
  | [] => .error .empty
  | '+' :: cs => (integerDigits 1 cs).map Int64.ofInt
  | '-' :: cs => (integerDigits (-1) cs).map Int64.ofInt
  | cs => (integerDigits 1 cs).map Int64.ofInt

end Decimal

end PlainStory
