import PlainStory.Proofs.Text.Basic
import PlainStory.Text.Bytes

/-!
# Reading at places

A list or a text read at places that are given as numbers: of its elements, or of the bytes of the
text. A place out of range, or within a character, stops the reading, so that a reading which gives a
result has used no such place. The laws say what is read at the places at which parts of a list or a
text meet.
-/

namespace PlainStory

/-- What stops a reading: places that do not go together with what is read. -/
inductive OutOfRange where
  | element (place length : Nat)
  | slice (start stop length : Nat)
deriving DecidableEq

/-- A reading at places. -/
abbrev Ranged := Except OutOfRange

namespace Ranged

@[simp] theorem ok_bind {α β : Type} (a : α) (f : α → Ranged β) : (Except.ok a >>= f) = f a := rfl

@[simp] theorem pure_eq_ok {α : Type} (a : α) : (pure a : Ranged α) = .ok a := rfl

/-! ### Places of a list -/

section

variable {α : Type} {xs front mid back : List α} {start stop : Nat}

def element (xs : List α) (place : Nat) : Ranged α :=
  match xs[place]? with
  | some x => .ok x
  | none => .error (.element place xs.length)

/-- The elements from one place up to another. -/
def slice (xs : List α) (start stop : Nat) : Ranged (List α) :=
  if start ≤ stop ∧ stop ≤ xs.length then .ok ((xs.take stop).drop start)
  else .error (.slice start stop xs.length)

theorem element_eq {x : α} (hxs : xs = front ++ x :: back) : element xs front.length = .ok x := by
  subst hxs
  simp [element]

/-- A list is read from places that are in order and within it. -/
theorem slice_eq_ok_iff : slice xs start stop = .ok mid ↔
    ∃ front back, xs = front ++ mid ++ back ∧ start = front.length ∧ stop = start + mid.length := by
  constructor
  · intro h
    rw [slice] at h
    split at h
    · next hrange =>
      obtain rfl := Except.ok.inj h
      refine ⟨xs.take start, xs.drop stop, ?_, ?_, ?_⟩
      · have htake : xs.take start ++ (xs.take stop).drop start = xs.take stop := by
          conv_rhs => rw [← List.take_append_drop start (xs.take stop), List.take_take,
            Nat.min_eq_left hrange.1]
        rw [htake, List.take_append_drop]
      · rw [List.length_take]; omega
      · rw [List.length_drop, List.length_take]; omega
    · cases h
  · rintro ⟨front, back, rfl, rfl, rfl⟩
    have htake : (front ++ mid ++ back).take (front.length + mid.length) = front ++ mid := by
      rw [← List.length_append, List.take_left]
    have hrange : front.length ≤ front.length + mid.length ∧
        front.length + mid.length ≤ (front ++ mid ++ back).length := by
      simp only [List.length_append]
      omega
    rw [slice, if_pos hrange, htake, List.drop_left]

/-- Where an element has a property, there is a first one that has it. -/
theorem exists_first {p : α → Bool} (h : ∃ x ∈ xs, p x = true) :
    ∃ front x back, xs = front ++ x :: back ∧ (∀ y ∈ front, p y = false) ∧ p x = true := by
  obtain ⟨x, hx⟩ := Option.isSome_iff_exists.1 (List.find?_isSome.2 h)
  obtain ⟨hp, front, back, hxs, hfront⟩ := List.find?_eq_some_iff_append.1 hx
  exact ⟨front, x, back, hxs, by simpa using hfront, hp⟩

/-- The first place from a given one on whose element has a property, the end if none has it. -/
def placeFrom (p : α → Bool) (xs : List α) (start : Nat) : Nat :=
  (((xs.drop start).findIdx? p).map (· + start)).getD xs.length

theorem placeFrom_map {β : Type} (p : β → Bool) (f : α → β) (xs : List α) (start : Nat) :
    placeFrom p (xs.map f) start = placeFrom (p ∘ f) xs start := by
  rw [placeFrom, ← List.map_drop, List.findIdx?_map, List.length_map, placeFrom]

theorem findIdx?_append_of_not {p : α → Bool} (hfront : ∀ x ∈ front, p x = false) (back : List α) :
    (front ++ back).findIdx? p = (back.findIdx? p).map (· + front.length) := by
  rw [List.findIdx?_append, List.findIdx?_eq_none_iff.2 hfront, Option.none_or]

theorem findIdx?_of_head {p : α → Bool} {x : α} (hx : p x = true) (xs : List α) :
    (x :: xs).findIdx? p = some 0 := by
  rw [List.findIdx?_cons, if_pos hx]

/-- The place is behind the elements that lack the property. -/
theorem placeFrom_eq {p : α → Bool} (hxs : xs = front ++ mid ++ back) (hmid : ∀ x ∈ mid, p x = false)
    (hback : ∀ x ∈ back.head?, p x = true) :
    placeFrom p xs front.length = (front ++ mid).length := by
  subst hxs
  rw [placeFrom, List.append_assoc, List.drop_left, findIdx?_append_of_not hmid]
  cases back with
  | nil => simp
  | cons x back =>
    rw [findIdx?_of_head (hback x rfl)]
    simp [Nat.add_comm]

end

end Ranged

/-! ### Places of a text -/

namespace Text

/-- The number of bytes of a text. -/
def size (s : Text) : Nat := (bytes s).length

@[simp] theorem size_nil : size [] = 0 := rfl

@[simp] theorem size_append (s t : Text) : size (s ++ t) = size s + size t := by
  rw [size, bytes, List.flatMap_append, List.length_append]
  rfl

theorem size_cons (c : Char) (s : Text) : size (c :: s) = c.utf8Size + size s := by
  rw [size, bytes, List.flatMap_cons, List.length_append, String.length_utf8EncodeChar]
  rfl

/-- A text parted behind its first `n` bytes, if it has so many and a character ends there. -/
def partAt? : Nat → Text → Option (Text × Text)
  | 0, s => some ([], s)
  | _ + 1, [] => none
  | n + 1, c :: cs =>
    if c.utf8Size ≤ n + 1 then
      (partAt? (n + 1 - c.utf8Size) cs).map fun parts => (c :: parts.1, parts.2)
    else none

theorem partAt?_cons_of_le {c : Char} {n : Nat} (h : c.utf8Size ≤ n) (cs : Text) :
    partAt? n (c :: cs) = (partAt? (n - c.utf8Size) cs).map fun parts => (c :: parts.1, parts.2) := by
  have hpos := Char.utf8Size_pos c
  cases n with
  | zero => omega
  | succ n => rw [partAt?, if_pos h]

theorem partAt?_eq_some_iff {n : Nat} {s front back : Text} :
    partAt? n s = some (front, back) ↔ s = front ++ back ∧ n = size front := by
  constructor
  · intro h
    fun_induction partAt? n s generalizing front with
    | case1 s =>
      obtain ⟨rfl, rfl⟩ := Prod.mk.inj (Option.some.inj h)
      exact ⟨rfl, rfl⟩
    | case2 n => cases h
    | case3 n c cs hle ih =>
      obtain ⟨parts, hparts, he⟩ := Option.map_eq_some_iff.1 h
      obtain ⟨rfl, rfl⟩ := Prod.mk.inj he
      obtain ⟨rfl, hsize⟩ := ih hparts
      refine ⟨rfl, ?_⟩
      rw [size_cons, ← hsize]
      omega
    | case4 n c cs hle => cases h
  · rintro ⟨rfl, rfl⟩
    induction front with
    | nil => rw [size_nil, List.nil_append, partAt?]
    | cons c front ih =>
      have hle : c.utf8Size ≤ size (c :: front) := by rw [size_cons]; omega
      have hrest : size (c :: front) - c.utf8Size = size front := by rw [size_cons]; omega
      rw [List.cons_append, partAt?_cons_of_le hle, hrest, ih, Option.map_some]

/-- The text from one byte up to another. -/
def sliceBytes (s : Text) (start stop : Nat) : Ranged Text :=
  match (partAt? stop s).bind fun parts => partAt? start parts.1 with
  | some parts => .ok parts.2
  | none => .error (.slice start stop (size s))

/-- A text is read from places at which characters begin and end. -/
theorem sliceBytes_eq_ok_iff {s mid : Text} {start stop : Nat} :
    sliceBytes s start stop = .ok mid ↔
      ∃ front back, s = front ++ mid ++ back ∧ start = size front ∧ stop = start + size mid := by
  constructor
  · intro h
    rw [sliceBytes] at h
    split at h
    · next parts hparts =>
      obtain ⟨⟨whole, back⟩, hstop, hstart⟩ := Option.bind_eq_some_iff.1 hparts
      obtain ⟨rfl, rfl⟩ := partAt?_eq_some_iff.1 hstop
      obtain ⟨hwhole, rfl⟩ := partAt?_eq_some_iff.1 hstart
      obtain rfl := Except.ok.inj h
      simp only at hwhole
      exact ⟨parts.1, back, by rw [hwhole], rfl, by rw [hwhole, size_append]⟩
    · cases h
  · rintro ⟨front, back, rfl, rfl, rfl⟩
    have hstop : partAt? (size front + size mid) (front ++ mid ++ back) = some (front ++ mid, back) :=
      partAt?_eq_some_iff.2 ⟨rfl, (size_append front mid).symm⟩
    have hstart : partAt? (size front) (front ++ mid) = some (front, mid) :=
      partAt?_eq_some_iff.2 ⟨rfl, rfl⟩
    rw [sliceBytes, hstop, Option.bind_some, hstart]

end Text

end PlainStory
