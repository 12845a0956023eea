/-!
# Text

A text is the list of its characters, so that every rule about texts is a recursion on that list.
This module holds the rules that all readers share: what a blank is, trimming, splitting at a
character or at a text, and joining.
-/

namespace PlainStory

/-- A text is the list of its characters. -/
abbrev Text := List Char

instance : Coe String Text := ⟨String.toList⟩

/-- Texts are hashed as lists of characters. -/
instance : Hashable Text := @instHashableList Char instHashableChar

namespace Text

/-! ### Blanks -/

/-- The characters with the Unicode property `White_Space`. -/
def isBlank (c : Char) : Bool :=
  let n := c.toNat
  (9 ≤ n && n ≤ 13) || n == 0x20 || n == 0x85 || n == 0xA0 || n == 0x1680 ||
    (0x2000 ≤ n && n ≤ 0x200A) || n == 0x2028 || n == 0x2029 || n == 0x202F || n == 0x205F ||
    n == 0x3000

/-- A text is blank when it holds nothing but blanks. -/
def blank (s : Text) : Bool := s.all isBlank

def trimStart (s : Text) : Text := s.dropWhile isBlank

def trimEnd (s : Text) : Text := (s.reverse.dropWhile isBlank).reverse

def trim (s : Text) : Text := trimEnd (trimStart s)

/-- Writes each run of blanks as a single space. -/
def narrow : Text → Text
  | [] => []
  | c :: cs =>
    if isBlank c then
      match cs with
      | [] => [' ']
      | d :: _ => if isBlank d then narrow cs else ' ' :: narrow cs
    else c :: narrow cs

/-- The text with no blanks at its ends and a single space between its words. -/
def squeeze (s : Text) : Text := narrow (trim s)

/-! ### Beginnings -/

/-- What follows `word` at the start of a text, if the text starts with it. -/
def after? : Text → Text → Option Text
  | [], s => some s
  | _ :: _, [] => none
  | w :: ws, c :: cs => if w = c then after? ws cs else none

theorem after?_eq_some_iff {word s rest : Text} : after? word s = some rest ↔ s = word ++ rest := by
  induction word generalizing s with
  | nil => simp [after?]
  | cons w ws ih =>
    cases s with
    | nil => simp [after?]
    | cons c cs =>
      by_cases h : w = c
      · simp [after?, h, ih]
      · simp [after?, h, Ne.symm h]

def startsWith (word s : Text) : Bool := (after? word s).isSome

theorem startsWith_iff {word s : Text} : startsWith word s = true ↔ ∃ rest, s = word ++ rest := by
  simp [startsWith, Option.isSome_iff_exists, after?_eq_some_iff]

/-! ### Splitting and joining -/

/-- Puts a character in front of the first text of a list. -/
def consFirst (c : Char) : List Text → List Text
  | [] => [[c]]
  | s :: ss => (c :: s) :: ss

/-- The texts between the occurrences of a character; there is one more of them than of those. -/
def splitAt (mark : Char) : Text → List Text
  | [] => [[]]
  | c :: cs => if c = mark then [] :: splitAt mark cs else consFirst c (splitAt mark cs)

theorem splitAt_ne_nil (mark : Char) (s : Text) : splitAt mark s ≠ [] := by
  cases s with
  | nil => simp [splitAt]
  | cons c cs =>
    rw [splitAt]
    split
    · simp
    · cases splitAt mark cs <;> simp [consFirst]

/-- The texts before and after the first occurrence of `word`. -/
def cut? (word : Text) : Text → Option (Text × Text)
  | [] => if word = [] then some ([], []) else none
  | c :: cs =>
    match after? word (c :: cs) with
    | some rest => some ([], rest)
    | none => (cut? word cs).map fun (front, rest) => (c :: front, rest)

theorem eq_of_cut? {word s front rest : Text} (h : cut? word s = some (front, rest)) :
    s = front ++ word ++ rest := by
  induction s generalizing front with
  | nil =>
    simp only [cut?] at h
    split at h <;> simp_all
  | cons c cs ih =>
    simp only [cut?] at h
    split at h
    · next r hr =>
      simp only [Option.some.injEq, Prod.mk.injEq] at h
      obtain ⟨rfl, rfl⟩ := h
      exact after?_eq_some_iff.1 hr
    · obtain ⟨⟨f, r⟩, hf, he⟩ := Option.map_eq_some_iff.1 h
      simp only [Prod.mk.injEq] at he
      obtain ⟨rfl, rfl⟩ := he
      rw [ih hf]
      simp

theorem length_of_cut? {word s front rest : Text} (h : cut? word s = some (front, rest)) :
    front.length + word.length + rest.length = s.length := by
  rw [eq_of_cut? h, List.length_append, List.length_append]

/-- The texts between the successive occurrences of a separator. The empty separator stands before,
between and behind all characters. -/
def splitBy (sep s : Text) : List Text :=
  if hsep : sep = [] then [] :: s.map (fun c => [c]) ++ [[]]
  else
    match _h : cut? sep s with
    | none => [s]
    | some (front, rest) => front :: splitBy sep rest
termination_by s.length
decreasing_by
  have := length_of_cut? _h
  have : 0 < sep.length := List.length_pos_iff.2 hsep
  omega

/-- The texts one after another with `sep` between them. -/
def join (sep : Text) (parts : List Text) : Text := sep.intercalate parts

theorem join_cons {sep s : Text} {parts : List Text} (h : parts ≠ []) :
    join sep (s :: parts) = s ++ sep ++ join sep parts := by
  cases parts with
  | nil => exact absurd rfl h
  | cons t ts => simp [join, List.intercalate_cons_cons]

theorem join_consFirst (sep : Text) (c : Char) {parts : List Text} (h : parts ≠ []) :
    join sep (consFirst c parts) = c :: join sep parts := by
  cases parts with
  | nil => exact absurd rfl h
  | cons s ss => cases ss <;> simp [consFirst, join, List.intercalate_cons_cons]

/-- Joining at the mark undoes the splitting. -/
theorem join_splitAt (mark : Char) (s : Text) : join [mark] (splitAt mark s) = s := by
  induction s with
  | nil => rfl
  | cons c cs ih =>
    rw [splitAt]
    split
    · next h => rw [join_cons (splitAt_ne_nil mark cs), ih, h, List.nil_append]; rfl
    · rw [join_consFirst _ _ (splitAt_ne_nil mark cs), ih]

/-! ### Lines -/

/-- The lines of a text. A line feed ends a line, a carriage return just before it goes with it, and
there is no empty last line. -/
def lines : Text → List Text
  | [] => []
  | '\n' :: cs => [] :: lines cs
  | '\r' :: '\n' :: cs => [] :: lines cs
  | c :: cs => consFirst c (lines cs)

def joinLines (parts : List Text) : Text := join ['\n'] parts

/-- Writes every carriage return followed by a line feed as a line feed. -/
def unixBreaks : Text → Text
  | [] => []
  | '\r' :: '\n' :: cs => '\n' :: unixBreaks cs
  | c :: cs => c :: unixBreaks cs

/-! ### Numerals and letters -/

def ofNat (n : Nat) : Text := Nat.toDigits 10 n

def ofInt : Int → Text
  | .ofNat n => ofNat n
  | .negSucc n => '-' :: ofNat (n + 1)

/-- Upper case for the ASCII letters; every other character stays. -/
def asciiUpper (s : Text) : Text := s.map Char.toUpper

/-- Lower case for the ASCII letters; every other character stays. -/
def asciiLower (s : Text) : Text := s.map Char.toLower

end Text

end PlainStory
