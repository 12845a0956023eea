import PlainStory.Decimal.Integer

/-!
# Floating point numbers in decimal

Reading a floating point number from a text, rounded to the nearest one, and showing one with the
fewest digits that read back.
-/

namespace PlainStory

/-- Why a text is no numeral of a floating point number. -/
inductive FloatError where
  | empty
  | invalid
deriving DecidableEq

def FloatError.message : FloatError → Text
  | empty => "cannot parse float from empty string"
  | invalid => "invalid float literal"

namespace Decimal

/-! ### Reading -/

def isDigit (c : Char) : Bool := (digit? c).isSome

def natOfDigits (ds : Text) : Nat := ds.foldl (fun n c => 10 * n + (digit? c).getD 0) 0

/-- The size of an exponent. Its digits count up to the first with which it reaches `2 ^ 16`. -/
def exponentOfDigits (ds : Text) : Nat :=
  ds.foldl (fun n c => if n < Nat.pow 2 16 then 10 * n + (digit? c).getD 0 else n) 0

/-- The exponent that ends a numeral, zero where there is none. -/
def exponent? : Text → Option Int
  | [] => some 0
  | e :: cs =>
    if e = 'e' ∨ e = 'E' then
      let (sign, ds) : Int × Text :=
        match cs with
        | '+' :: ds => (1, ds)
        | '-' :: ds => (-1, ds)
        | ds => (1, ds)
      if ds ≠ [] ∧ ds.all isDigit then some (sign * exponentOfDigits ds) else none
    else none

/-- The digits of a numeral without their point, and the power of ten they are to be multiplied
with. -/
def scientific? (s : Text) : Option (Text × Int) := do
  let whole := s.takeWhile isDigit
  let (places, rest) :=
    match s.dropWhile isDigit with
    | '.' :: rest => (rest.takeWhile isDigit, rest.dropWhile isDigit)
    | rest => ([], rest)
  if whole ++ places = [] then none
  let e ← exponent? rest
  return (whole ++ places, e - places.length)

/-- The most digits that can tell on which side of a number halfway between two floating point numbers
another number lies: those halfway have fewer. -/
def maxDigits : Nat := 800

/-- The floating point number nearest to `digits * 10 ^ e`. The largest is below `10 ^ 309`, and half
the smallest is above `10 ^ (-324)`. Behind `maxDigits` digits it only matters whether there are more
than zeros. -/
def nearest (digits : Text) (e : Int) : Float :=
  let ds := digits.dropWhile (· = '0')
  let top := ds.length + e
  if ds = [] ∨ top < -330 then 0
  else if 310 < top then 1 / 0
  else
    let rest := ds.drop maxDigits
    let ds := ds.take maxDigits ++ (if rest.all (· = '0') then [] else ['1'])
    let e := top - ds.length
    .ofScientific (natOfDigits ds) (e < 0) e.natAbs

/-- A number without sign: infinity and what is no number by name, the others by their digits. -/
def unsigned? (s : Text) : Option Float :=
  let word := Text.asciiLower s
  if word = "inf" ∨ word = "infinity" then some (1 / 0)
  else if word = "nan" then some (0 / 0)
  else (scientific? s).map fun (ds, e) => nearest ds e

def float? (s : Text) : Except FloatError Float :=
  let number :=
    match s with
    | '+' :: s => unsigned? s
    | '-' :: s => (unsigned? s).map (- ·)
    | s => unsigned? s
  match s, number with
  | [], _ => .error .empty
  | _, none => .error .invalid
  | _, some x => .ok x

/-! ### The fewest digits that read back -/

/-- The numbers that round to `4 * m * 2 ^ (q - 2)` lie between the neighbouring halves. All bounds
here are multiplied with `10 ^ 360 * 2 ^ 1080`, which makes them whole. -/
structure Rounding where
  value : Nat
  low : Nat
  high : Nat
  /-- Whether the bounds round to the value too. -/
  closed : Bool

/-- The numbers that round to the finite positive number with the given bits. -/
def Rounding.ofBits (bits : Nat) : Rounding :=
  let field := bits / Nat.pow 2 52
  let fraction := bits % Nat.pow 2 52
  let m := if field = 0 then fraction else fraction + Nat.pow 2 52
  -- the exponent `q`, raised by 1074
  let q := if field = 0 then 0 else field - 1
  let unit := Nat.pow 2 (q + 4) * Nat.pow 10 360
  let below := if fraction = 0 ∧ 1 < field then 1 else 2
  ⟨4 * m * unit, (4 * m - below) * unit, (4 * m + 2) * unit, m % 2 = 0⟩

def Rounding.contains (r : Rounding) (x : Nat) : Bool :=
  (r.low < x && x < r.high) || (r.closed && (x = r.low || x = r.high))

/-- The point nearest to the value on the grid with the given unit, if it lies in the interval; of two
that are equally near the higher. -/
def Rounding.onGrid? (r : Rounding) (unit : Nat) : Option Nat :=
  let down := r.value / unit
  let nearest := if 2 * (r.value % unit) < unit then [down, down + 1] else [down + 1, down]
  nearest.find? fun n => r.contains (n * unit)

/-- Tries grids with one more digit each time; `e + 360` is the exponent of the present one. -/
def Rounding.shortestFrom (r : Rounding) : Nat → Nat → Nat × Int
  | 0, e => (r.value / (Nat.pow 10 e * Nat.pow 2 1080), (e : Int) - 360)
  | tries + 1, e =>
    match r.onGrid? (Nat.pow 10 e * Nat.pow 2 1080) with
    | some n => (n, (e : Int) - 360)
    | none => r.shortestFrom tries (e - 1)

/-- The fewest digits that read back as the finite positive number with the given bits, as a whole
number and the power of ten to multiply it with. -/
def shortest (bits : Nat) : Nat × Int :=
  let r := Rounding.ofBits bits
  r.shortestFrom 17 ((Text.ofNat (r.value / Nat.pow 2 1080)).length - 1)

/-! ### Showing -/

/-- A number as its digits and the place of its point: by exponent from `10 ^ 16` on and below
`10 ^ (-4)`, else with at least one place. -/
def layout (digits : Text) (point : Int) : Text :=
  if point ≤ -4 ∨ 16 < point then
    let places := digits.drop 1
    digits.take 1 ++ (if places = [] then [] else '.' :: places) ++ 'e' :: Text.ofInt (point - 1)
  else if point ≤ 0 then "0." ++ List.replicate point.natAbs '0' ++ digits
  else
    let whole := digits ++ List.replicate (point.toNat - digits.length) '0'
    let places := digits.drop point.toNat
    whole.take point.toNat ++ '.' :: (if places = [] then ['0'] else places)

def showFloat (x : Float) : Text :=
  let bits := x.toBits.toNat
  let sign : Text := if bits < Nat.pow 2 63 then [] else ['-']
  let bits := bits % Nat.pow 2 63
  if 2047 * Nat.pow 2 52 < bits then "NaN"
  else if bits = 2047 * Nat.pow 2 52 then sign ++ "inf"
  else if bits = 0 then sign ++ "0.0"
  else
    let (n, e) := shortest bits
    let all := Text.ofNat n
    let digits := (all.reverse.dropWhile (· = '0')).reverse
    sign ++ layout digits (all.length + e)

end Decimal

end PlainStory
