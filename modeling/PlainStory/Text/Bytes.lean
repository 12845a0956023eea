import PlainStory.Text.Basic

/-!
# Texts as bytes

Reading a text from its UTF-8 bytes. What is refused is described by the number of valid bytes before
it and, unless the bytes end within a character, by the number of bytes that cannot belong to one.
-/

namespace PlainStory.Text

/-- Bytes that are no UTF-8. -/
structure InvalidBytes where
  /-- The number of valid bytes before. -/
  validUpTo : Nat
  /-- The number of bytes to skip, if not the end of the bytes was to blame. -/
  length? : Option Nat
deriving DecidableEq

def InvalidBytes.message (e : InvalidBytes) : Text :=
  match e.length? with
  | some n =>
    "invalid utf-8 sequence of " ++ ofNat n ++ " bytes from index " ++ ofNat e.validUpTo
  | none => "incomplete utf-8 byte sequence from index " ++ ofNat e.validUpTo

/-- How a character with the given first byte goes on: the lowest and highest second byte and the
number of bytes after that one. -/
def continuation? (first : UInt8) : Option (UInt8 × UInt8 × Nat) :=
  if 0xC2 ≤ first && first ≤ 0xDF then some (0x80, 0xBF, 0)
  else if first = 0xE0 then some (0xA0, 0xBF, 1)
  else if first = 0xED then some (0x80, 0x9F, 1)
  else if 0xE1 ≤ first && first ≤ 0xEF then some (0x80, 0xBF, 1)
  else if first = 0xF0 then some (0x90, 0xBF, 2)
  else if 0xF1 ≤ first && first ≤ 0xF3 then some (0x80, 0xBF, 2)
  else if first = 0xF4 then some (0x80, 0x8F, 2)
  else none

/-- What one character at the start of some bytes amounts to. -/
inductive FirstChar where
  /-- The number of bytes that the character has after its first one. -/
  | valid (more : Nat)
  | invalid (length? : Option Nat)
deriving DecidableEq

/-- Checks the last bytes of a character, `seen` of whose bytes have been read. -/
def checkTail (seen : Nat) : Nat → List UInt8 → FirstChar
  | 0, _ => .valid (seen - 1)
  | _ + 1, [] => .invalid none
  | n + 1, b :: bs =>
    if 0x80 ≤ b && b ≤ 0xBF then checkTail (seen + 1) n bs else .invalid (some seen)

def firstChar (first : UInt8) (rest : List UInt8) : FirstChar :=
  if first < 0x80 then .valid 0
  else
    match continuation? first, rest with
    | none, _ => .invalid (some 1)
    | some _, [] => .invalid none
    | some (low, high, n), b :: bs =>
      if low ≤ b && b ≤ high then checkTail 2 n bs else .invalid (some 1)

/-- The first place at which bytes are no UTF-8, when `offset` valid bytes come before and the next
`skip` bytes are known to be valid. -/
def invalidFrom? (offset : Nat) : Nat → List UInt8 → Option InvalidBytes
  | _, [] => none
  | skip + 1, _ :: bs => invalidFrom? (offset + 1) skip bs
  | 0, b :: bs =>
    match firstChar b bs with
    | .valid more => invalidFrom? (offset + 1) more bs
    | .invalid length? => some ⟨offset, length?⟩

/-- The text with the given UTF-8 bytes. -/
def ofBytes? (bytes : List UInt8) : Except InvalidBytes Text :=
  match invalidFrom? 0 0 bytes with
  | some e => .error e
  | none => .ok (((String.fromUTF8? ⟨bytes.toArray⟩).getD "").toList)

/-- The UTF-8 bytes of a text. -/
def bytes (s : Text) : List UInt8 := s.flatMap String.utf8EncodeChar

/-- A text with the text of further bytes behind it. -/
def appendBytes (s : Text) (bytes : List UInt8) : Except InvalidBytes Text :=
  (ofBytes? bytes).map (s ++ ·)

end PlainStory.Text
