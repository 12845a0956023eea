import PlainStory.Library.Glob.Basic
import PlainStory.Text.Bytes

/-!
# Matching paths against globs

A path is matched byte by byte, so a character outside ASCII counts as the bytes that encode it. A
list of marks says for each place of a path, before every byte and at the end, whether the path can be
matched from there on. The marks for parts in a row come from the last part to the first, each time
from the marks for what follows; the work is at most the number of parts times the length of the path.
-/

namespace PlainStory.Glob

/-! ### Bytes -/

def slash : UInt8 := 0x2F

def lowerByte (b : UInt8) : UInt8 := if 0x41 ≤ b && b ≤ 0x5A then b + 0x20 else b

def upperByte (b : UInt8) : UInt8 := if 0x61 ≤ b && b ≤ 0x7A then b - 0x20 else b

def sameLetter (b c : UInt8) : Bool := lowerByte b = lowerByte c

def inRange (b : UInt8) (r : UInt8 × UInt8) : Bool :=
  let within := fun c => r.1 ≤ c && c ≤ r.2
  within b || within (lowerByte b) || within (upperByte b)

/-- The ranges of bytes for a range of characters in a class. The bytes of its ends are written one
after another with the dash in between, so only the two at the dash bound a range. -/
def byteRanges (r : Char × Char) : List (UInt8 × UInt8) :=
  let low := String.utf8EncodeChar r.1
  let high := String.utf8EncodeChar r.2
  let alone := List.map fun b : UInt8 => (b, b)
  if r.1 = r.2 then alone low
  else alone low.dropLast ++ (low.drop (low.length - 1)).zip (high.take 1) ++ alone (high.drop 1)

/-- Whether a class takes a byte. A slash is no exception: a class can reach from a name to the next. -/
def inClass (negated : Bool) (ranges : List (Char × Char)) (b : UInt8) : Bool :=
  (ranges.flatMap byteRanges).any (inRange b) != negated

/-! ### Marks -/

/-- The mark of the first place. -/
def first (marks : List Bool) : Bool := marks.headD false

/-- The places before a byte with the property `p` behind which there is a mark. -/
def oneByte (p : UInt8 → Bool) : List UInt8 → List Bool → List Bool
  | [], _ => [false]
  | b :: bs, marks => (p b && first marks.tail) :: oneByte p bs marks.tail

/-- The places from which some bytes with the property `p` lead to a mark. -/
def manyBytes (p : UInt8 → Bool) : List UInt8 → List Bool → List Bool
  | [], marks => [first marks]
  | b :: bs, marks =>
    let below := manyBytes p bs marks.tail
    (first marks || p b && first below) :: below

/-- The places from which a slash further on leads to a mark. -/
def behindSlash : List UInt8 → List Bool → List Bool
  | [], _ => [false]
  | b :: bs, marks =>
    let below := behindSlash bs marks.tail
    (b = slash && first marks.tail || first below) :: below

def either (marks others : List Bool) : List Bool := List.zipWith (· || ·) marks others

/-- The places that are marked or from which a slash further on leads to a mark. -/
def hereOrBehindSlash (path : List UInt8) (marks : List Bool) : List Bool :=
  either marks (behindSlash path marks)

def nowhere (path : List UInt8) : List Bool := path.map (fun _ => false) ++ [false]

def atEnd (path : List UInt8) : List Bool := path.map (fun _ => false) ++ [true]

/-! ### Parts -/

mutual

/-- Whether a part is a group in which nothing is written. -/
def isVoid : GlobPart → Bool
  | .group branches => areAllVoid branches
  | _ => false

def isVoidRow : List GlobPart → Bool
  | [] => true
  | p :: ps => isVoid p && isVoidRow ps

def areAllVoid : List (List GlobPart) → Bool
  | [] => true
  | b :: bs => isVoidRow b && areAllVoid bs

end

mutual

/-- The places from which a part leads to a mark. -/
def marksOf (path : List UInt8) : GlobPart → List Bool → List Bool
  | .char c, marks =>
    (String.utf8EncodeChar c).foldr (fun b marks => oneByte (sameLetter b) path marks) marks
  | .anyByte, marks => oneByte (· ≠ slash) path marks
  | .anyOf negated ranges, marks => oneByte (inClass negated ranges) path marks
  | .star, marks => manyBytes (· ≠ slash) path marks
  | .leadingNames, marks => hereOrBehindSlash path marks
  | .trailingNames, marks => oneByte (· = slash) path (manyBytes (fun _ => true) path marks)
  | .innerNames, marks => oneByte (· = slash) path (hereOrBehindSlash path marks)
  | .group branches, marks =>
    if areAllVoid branches then marks else marksOfAny path branches marks

/-- The places from which parts in a row lead to a mark. -/
def marksOfRow (path : List UInt8) : List GlobPart → List Bool → List Bool
  | [], marks => marks
  | p :: ps, marks => marksOf path p (marksOfRow path ps marks)

/-- The places from which one of several branches leads to a mark. A void branch does not count. -/
def marksOfAny (path : List UInt8) : List (List GlobPart) → List Bool → List Bool
  | [], _ => nowhere path
  | b :: bs, marks =>
    let others := marksOfAny path bs marks
    if isVoidRow b then others else either (marksOfRow path b marks) others

end

/-- Whether parts in a row take a whole path. Leading names alone take any path. -/
def accepts (parts : List GlobPart) (path : List UInt8) : Bool :=
  match parts with
  | [.leadingNames] => true
  | _ => first (marksOfRow path parts (atEnd path))

end PlainStory.Glob
