import PlainStory.Library.Glob.Basic

/-!
# Reading globs

`Glob.parse?` reads the parts of a glob from its text, character by character. Groups that are open
are kept in a stack with the branches read so far.
-/

namespace PlainStory.Glob

/-- The characters of a class while they are being read. -/
structure ClassDraft where
  ranges : List (Char × Char) := []
  /-- Whether the last range is still to get its end. -/
  inRange : Bool := false

/-- Adds a character to a class, or ends its last range with it. -/
def ClassDraft.add (d : ClassDraft) (c : Char) : Except GlobError ClassDraft :=
  match d.inRange, d.ranges with
  | true, (low, _) :: ranges =>
    if c < low then .error (.invalidRange low c) else .ok ⟨(low, c) :: ranges, false⟩
  | _, ranges => .ok ⟨(c, c) :: ranges, false⟩

/-- Reads the rest of a class, up to the bracket behind it. -/
def classFrom (d : ClassDraft) : Text → Except GlobError (List (Char × Char) × Text)
  | [] => .error .unclosedClass
  | c :: cs =>
    if c = ']' ∧ d.ranges ≠ [] then
      .ok (if d.inRange then ('-', '-') :: d.ranges else d.ranges, cs)
    else if c = '-' ∧ d.ranges ≠ [] ∧ !d.inRange then classFrom { d with inRange := true } cs
    else
      match d.add c with
      | .error e => .error e
      | .ok d => classFrom d cs

theorem length_of_classFrom {d : ClassDraft} {s rest : Text} {ranges : List (Char × Char)}
    (h : classFrom d s = .ok (ranges, rest)) : rest.length < s.length := by
  induction s generalizing d with
  | nil => simp [classFrom] at h
  | cons c cs ih =>
    simp only [classFrom] at h
    split at h
    · simp only [Except.ok.injEq, Prod.mk.injEq] at h
      simp [← h.2]
    · split at h
      · exact Nat.lt_succ_of_lt (ih h)
      · split at h
        · simp at h
        · exact Nat.lt_succ_of_lt (ih h)

/-- Reads the class behind an opening bracket. -/
def class? (s : Text) : Except GlobError (GlobPart × Text) :=
  match s with
  | '!' :: s => (classFrom {} s).map fun (ranges, rest) => (.anyOf true ranges, rest)
  | '^' :: s => (classFrom {} s).map fun (ranges, rest) => (.anyOf true ranges, rest)
  | s => (classFrom {} s).map fun (ranges, rest) => (.anyOf false ranges, rest)

theorem length_of_class? {s rest : Text} {p : GlobPart} (h : class? s = .ok (p, rest)) :
    rest.length < s.length := by
  have key : ∀ {t : Text} {n : Bool},
      (classFrom {} t).map (fun (x : List (Char × Char) × Text) => (GlobPart.anyOf n x.1, x.2)) =
        .ok (p, rest) → rest.length < t.length := by
    intro t n ht
    cases hc : classFrom {} t with
    | error e => simp [hc, Except.map] at ht
    | ok x =>
      simp only [hc, Except.map, Except.ok.injEq, Prod.mk.injEq] at ht
      rw [← ht.2]
      exact length_of_classFrom hc
  unfold class? at h
  split at h
  · exact Nat.lt_succ_of_lt (key h)
  · exact Nat.lt_succ_of_lt (key h)
  · exact key h

/-- A group that is open: its finished branches, last one first, and the parts before it. -/
structure OpenGroup where
  branches : List (List GlobPart) := []
  before : List GlobPart

/-- A glob while it is being read. The parts of the present branch are kept last one first. -/
structure Draft where
  parts : List GlobPart := []
  groups : List OpenGroup := []
  /-- The character read last. -/
  last : Option Char := none

def Draft.push (d : Draft) (p : GlobPart) (last : Char) : Draft :=
  { d with parts := p :: d.parts, last := some last }

def Draft.openGroup (d : Draft) : Draft := ⟨[], { before := d.parts } :: d.groups, some '{'⟩

def Draft.nextBranch (d : Draft) : Draft :=
  match d.groups with
  | [] => d.push (.char ',') ','
  | g :: gs => ⟨[], { g with branches := d.parts.reverse :: g.branches } :: gs, some ','⟩

def Draft.closeGroup (d : Draft) : Except GlobError Draft :=
  match d.groups with
  | [] => .error .unopenedGroup
  | g :: gs =>
    .ok ⟨.group (d.parts.reverse :: g.branches).reverse :: g.before, gs, some '}'⟩

/-- Replaces the part in front of two stars, a slash, by the names that they stand for. -/
def namesFor (trailing : Bool) : List GlobPart → List GlobPart
  | .leadingNames :: parts => .leadingNames :: parts
  | .trailingNames :: parts => .trailingNames :: parts
  | _ :: parts => (if trailing then .trailingNames else .innerNames) :: parts
  | [] => [if trailing then .trailingNames else .innerNames]

/-- Adds two stars, of which the given text is the rest: what they stand for depends on whether they
are alone between slashes. Gives what is left of the rest. -/
def Draft.addTwoStars (d : Draft) (rest : Text) : Draft × Text :=
  let asStars := ({ d with parts := .star :: .star :: d.parts, last := some '*' }, rest)
  if d.parts = [] then
    match rest with
    | [] => (d.push .leadingNames '*', [])
    | '/' :: rest => (d.push .leadingNames '/', rest)
    | _ => asStars
  else if d.last ≠ some '/' ∧ (d.groups = [] ∨ d.last ≠ some ',' ∧ d.last ≠ some '{') then asStars
  else
    match rest with
    | [] => ({ d with parts := namesFor true d.parts, last := some '*' }, [])
    | '/' :: rest => ({ d with parts := namesFor false d.parts, last := some '/' }, rest)
    | c :: _ =>
      if d.groups ≠ [] ∧ (c = ',' ∨ c = '}') then
        ({ d with parts := namesFor true d.parts, last := some '*' }, rest)
      else asStars

theorem length_addTwoStars (d : Draft) (rest : Text) :
    (d.addTwoStars rest).2.length ≤ rest.length := by
  unfold Draft.addTwoStars
  grind

/-- Goes on reading behind a draft. -/
def readFrom (d : Draft) : Text → Except GlobError Draft
  | [] => .ok d
  | '?' :: cs => readFrom (d.push .anyByte '?') cs
  | '*' :: '*' :: cs => readFrom (d.addTwoStars cs).1 (d.addTwoStars cs).2
  | '*' :: cs => readFrom (d.push .star '*') cs
  | '[' :: cs =>
    match _h : class? cs with
    | .error e => .error e
    | .ok (p, rest) => readFrom (d.push p ']') rest
  | '{' :: cs => readFrom d.openGroup cs
  | '}' :: cs =>
    match d.closeGroup with
    | .error e => .error e
    | .ok d => readFrom d cs
  | ',' :: cs => readFrom d.nextBranch cs
  | ['\\'] => .error .danglingEscape
  | '\\' :: c :: cs => readFrom (d.push (.char c) c) cs
  | c :: cs => readFrom (d.push (.char c) c) cs
termination_by s => s.length
decreasing_by
  all_goals simp only [List.length_cons]
  · omega
  · have := length_addTwoStars d cs
    omega
  · omega
  · have := length_of_class? _h
    omega
  all_goals omega

def parse? (s : Text) : Except GlobError (List GlobPart) :=
  match readFrom {} s with
  | .error e => .error e
  | .ok d => if d.groups = [] then .ok d.parts.reverse else .error .unclosedGroup

end PlainStory.Glob
