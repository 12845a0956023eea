import PlainStory.Proofs.Pattern.Cut

/-!
# Patterns as regular expressions

`Pattern.source` writes a pattern as a regular expression. `Expression.Takes` has the rules of regular
expressions for what patterns are written with, and goes by the text of the expression alone. The main
statement is that the expression of a pattern takes the steps that the pattern matches, and that its
groups hold the values: of several ways to take a step the one counts in which the repetitions, from
left to right, take as much as they can.
-/

namespace PlainStory

open Piece (IsCut Cut metacharacters)

/-! ### What an expression takes -/

/-- An expression takes a text: each character without a meaning of its own takes itself, as does one
that is escaped, `\s+` takes some blanks, and the group `(.*)` anything. With that come the lengths of
what is repeated and what the groups hold, from left to right. -/
inductive Expression.Takes : Text → Text → List Nat → List Text → Prop where
  | nil : Takes [] [] [] []
  | literal {c e s lengths groups} (hc : c ∉ metacharacters) (rest : Takes e s lengths groups) :
    Takes (c :: e) (c :: s) lengths groups
  | escaped {c e s lengths groups} (hc : c ∈ metacharacters) (rest : Takes e s lengths groups) :
    Takes ('\\' :: c :: e) (c :: s) lengths groups
  | blanks {run e s lengths groups} (hne : run ≠ []) (hrun : ∀ c ∈ run, Text.isBlank c = true)
    (rest : Takes e s lengths groups) :
    Takes ('\\' :: 's' :: '+' :: e) (run ++ s) (run.length :: lengths) groups
  | group {part e s lengths groups} (rest : Takes e s lengths groups) :
    Takes ('(' :: '.' :: '*' :: ')' :: e) (part ++ s) (part.length :: lengths) (part :: groups)

namespace Piece

theorem Cut.groups_cons (p : Piece) (part : Text) (cut : Cut) :
    Cut.groups ((p, part) :: cut) = (p.name?.map fun _ => part).toList ++ cut.groups := by
  cases p <;> rfl

/-! ### Pieces as parts of an expression -/

variable {e s : Text} {lengths : List Nat} {groups : List Text}

theorem takes_source_char_iff {c : Char} :
    Expression.Takes (source (.char c) ++ e) s lengths groups ↔
      ∃ rest, s = c :: rest ∧ Expression.Takes e rest lengths groups := by
  have hbackslash : '\\' ∈ metacharacters := by decide
  have hletter : 's' ∉ metacharacters := by decide
  constructor
  · intro h
    rw [source] at h
    split at h
    · next hc =>
      cases h with
      | literal hno _ => exact absurd hbackslash hno
      | escaped _ rest => exact ⟨_, rfl, rest⟩
      | blanks _ _ _ => exact absurd hc hletter
    · next hc =>
      cases h with
      | literal _ rest => exact ⟨_, rfl, rest⟩
      | escaped _ _ => exact absurd hbackslash hc
      | blanks _ _ _ => exact absurd hbackslash hc
      | group _ => exact absurd (by decide) hc
  · rintro ⟨rest, rfl, h⟩
    rw [source]
    split
    · next hc => exact .escaped hc h
    · next hc => exact .literal hc h

theorem takes_source_blank_iff :
    Expression.Takes (source .blank ++ e) s lengths groups ↔
      ∃ run rest more, run ≠ [] ∧ (∀ c ∈ run, Text.isBlank c = true) ∧ s = run ++ rest ∧
        lengths = run.length :: more ∧ Expression.Takes e rest more groups := by
  have hsource : source .blank ++ e = '\\' :: 's' :: '+' :: e := rfl
  rw [hsource]
  constructor
  · intro h
    cases h with
    | literal hno _ => exact absurd (by decide) hno
    | escaped hletter _ => exact absurd hletter (by decide)
    | blanks hne hrun rest => exact ⟨_, _, _, hne, hrun, rfl, rfl, rest⟩
  · rintro ⟨run, rest, more, hne, hrun, rfl, rfl, h⟩
    exact .blanks hne hrun h

theorem takes_source_slot_iff {name : Text} :
    Expression.Takes (source (.slot name) ++ e) s lengths groups ↔
      ∃ part rest more later, s = part ++ rest ∧ lengths = part.length :: more ∧
        groups = part :: later ∧ Expression.Takes e rest more later := by
  have hsource : source (.slot name) ++ e = '(' :: '.' :: '*' :: ')' :: e := rfl
  rw [hsource]
  constructor
  · intro h
    cases h with
    | literal hno _ => exact absurd (by decide) hno
    | group rest => exact ⟨_, _, _, _, rfl, rfl, rfl, rest⟩
  · rintro ⟨part, rest, more, later, rfl, rfl, rfl, h⟩
    exact .group h

/-- The expression of a piece takes what the piece takes. -/
theorem takes_source_append_iff {p : Piece} :
    Expression.Takes (p.source ++ e) s lengths groups ↔
      ∃ part rest more later, s = part ++ rest ∧ Takes p part ∧
        lengths = (if p.isOpen then part.length :: more else more) ∧
        groups = (p.name?.map fun _ => part).toList ++ later ∧
        Expression.Takes e rest more later := by
  cases p with
  | char c =>
    rw [takes_source_char_iff]
    constructor
    · rintro ⟨rest, rfl, h⟩
      exact ⟨[c], rest, lengths, groups, rfl, .char c, rfl, rfl, h⟩
    · rintro ⟨part, rest, more, later, rfl, htakes, rfl, rfl, h⟩
      cases htakes with
      | char c => exact ⟨rest, rfl, h⟩
  | blank =>
    rw [takes_source_blank_iff]
    constructor
    · rintro ⟨run, rest, more, hne, hrun, rfl, rfl, h⟩
      exact ⟨run, rest, more, groups, rfl, .blank hne hrun, rfl, rfl, h⟩
    · rintro ⟨part, rest, more, later, rfl, htakes, rfl, rfl, h⟩
      cases htakes with
      | blank hne hrun => exact ⟨part, rest, more, hne, hrun, rfl, rfl, h⟩
  | slot name =>
    rw [takes_source_slot_iff]
    constructor
    · rintro ⟨part, rest, more, later, rfl, rfl, rfl, h⟩
      exact ⟨part, rest, more, later, rfl, .slot name part, rfl, rfl, h⟩
    · rintro ⟨part, rest, more, later, rfl, -, rfl, rfl, h⟩
      exact ⟨part, rest, more, later, rfl, rfl, rfl, h⟩

/-- The expression of pieces takes a text in as many ways as the text can be cut for the pieces. -/
theorem takes_source_iff {ps : List Piece} :
    Expression.Takes (ps.flatMap source) s lengths groups ↔
      ∃ cut, IsCut ps s cut ∧ cut.openLengths = lengths ∧ cut.groups = groups := by
  induction ps generalizing s lengths groups with
  | nil =>
    constructor
    · rintro ⟨⟩
      exact ⟨[], isCut_nil_iff.2 ⟨rfl, rfl⟩, rfl, rfl⟩
    · rintro ⟨cut, hcut, rfl, rfl⟩
      obtain ⟨rfl, rfl⟩ := isCut_nil_iff.1 hcut
      exact .nil
  | cons p ps ih =>
    rw [List.flatMap_cons, takes_source_append_iff]
    constructor
    · rintro ⟨part, rest, more, later, rfl, htakes, rfl, rfl, h⟩
      obtain ⟨cut, hcut, rfl, rfl⟩ := ih.1 h
      exact ⟨(p, part) :: cut, isCut_cons_iff.2 ⟨part, rest, cut, rfl, rfl, htakes, hcut⟩,
        openLengths_cons p part cut, Cut.groups_cons p part cut⟩
    · rintro ⟨cut, hcut, rfl, rfl⟩
      obtain ⟨part, rest, tail, rfl, rfl, htakes, htail⟩ := isCut_cons_iff.1 hcut
      exact ⟨part, rest, _, _, rfl, htakes, openLengths_cons p part tail,
        Cut.groups_cons p part tail, ih.2 ⟨tail, htail, rfl, rfl⟩⟩

end Piece

/-! ### The main statement -/

namespace Pattern

/-- A pattern matches the steps that its expression takes, and gives what the groups hold in the way
in which the repetitions, from left to right, take the most. -/
theorem values?_iff_source (p : Pattern) :
    ∃ body : Text, p.source = "(?s)^" ++ body ++ "$" ∧
      (∀ step, p.isMatch step = true ↔
        ∃ lengths groups, Expression.Takes body (Text.trim step) lengths groups) ∧
      ∀ step values, p.values? step = some values ↔
        ∃ lengths groups, Expression.Takes body (Text.trim step) lengths groups ∧
          (∀ lengths' groups', Expression.Takes body (Text.trim step) lengths' groups' →
            lengths' = lengths ∧ groups' = groups ∨ lengths' < lengths) ∧
          values = groups.map Text.trim := by
  refine ⟨p.pieces.flatMap Piece.source, rfl, fun step => ?_, fun step values => ?_⟩
  · rw [isMatch_eq_isSome_values?, isSome_values?]
    constructor
    · rintro ⟨cut, hcut⟩
      exact ⟨_, _, Piece.takes_source_iff.2 ⟨cut, hcut, rfl, rfl⟩⟩
    · rintro ⟨lengths, groups, h⟩
      obtain ⟨cut, hcut, -⟩ := Piece.takes_source_iff.1 h
      exact ⟨cut, hcut⟩
  · rw [values?, parts?_eq_fit]
    constructor
    · intro h
      obtain ⟨parts, hparts, rfl⟩ := Option.map_eq_some_iff.1 h
      refine ⟨_, _, Piece.takes_source_iff.2 ⟨_, Piece.isCut_zip_of_fit hparts, rfl, rfl⟩, ?_, ?_⟩
      · intro lengths' groups' h'
        obtain ⟨cut, hcut, rfl, rfl⟩ := Piece.takes_source_iff.1 h'
        rcases Piece.eq_or_openLengths_lt hparts hcut with rfl | hlt
        · exact .inl ⟨rfl, rfl⟩
        · exact .inr hlt
      · rw [← Cut.map_snd_values, map_snd_values_zip]
    · rintro ⟨lengths, groups, h, hgreatest, rfl⟩
      obtain ⟨cut, hcut, rfl, rfl⟩ := Piece.takes_source_iff.1 h
      cases hparts : Piece.fit p.pieces (Text.trim step) with
      | none => exact absurd hcut (Piece.not_isCut_of_fit hparts cut)
      | some parts =>
        have hfit := Piece.takes_source_iff.2 ⟨_, Piece.isCut_zip_of_fit hparts, rfl, rfl⟩
        -- the greedy cut is not behind the given one, and no cut is before the greedy one
        have hcut : cut = p.pieces.zip parts := by
          refine (Piece.eq_or_openLengths_lt hparts hcut).resolve_right fun hlt => ?_
          rcases hgreatest _ _ hfit with ⟨heq, -⟩ | hlt'
          · rw [heq] at hlt
            exact List.lt_irrefl _ hlt
          · exact List.lt_asymm hlt hlt'
        rw [hcut, Option.map_some, ← Cut.map_snd_values, map_snd_values_zip]

/-- A mark that no name follows and a point are escaped. -/
example : Pattern.source ⟨"$who pays $ 1.5", '$', [.slot "who", .blank, .char 'p', .char 'a', .char 'y',
    .char 's', .blank, .char '$', .blank, .char '1', .char '.', .char '5']⟩ =
      "(?s)^(.*)\\s+pays\\s+\\$\\s+1\\.5$" := by decide

end Pattern

end PlainStory
