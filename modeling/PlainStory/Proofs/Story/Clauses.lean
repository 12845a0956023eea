import PlainStory.Proofs.Text.Basic
import PlainStory.Story.Reader

/-!
# Clauses of a narrative

In which form a text is read as a narrative, and as which clauses. A reading is any way to write the
text with the three words of a form one after another. The words may be empty, repeat or be in one
another, so a text can have many readings. The main statement is that the search for one word after
another finds a reading whenever there is one, and that it is the reading in which, from left to right,
the least is in front of the words. Where the words are on lines of their own, a clause is read up to
the next word, which it may hold itself.
-/

namespace PlainStory.Narrative

/-- The forms of a narrative. -/
inductive Form where
  | purpose
  | benefit
deriving DecidableEq

namespace Form

/-- The words of a form, each with a clause behind it. -/
def word₁ : Form → Keyword
  | purpose => .inOrderTo
  | benefit => .asA

def word₂ : Form → Keyword
  | purpose => .asA
  | benefit => .iWantTo

def word₃ : Form → Keyword
  | purpose => .iWantTo
  | benefit => .soThat

/-- The narrative with the given clauses. -/
def narrative : Form → Text → Text → Text → Narrative
  | purpose => withPurpose
  | benefit => withBenefit

/-- The clauses that are found by the words of a form. -/
def clauses? (form : Form) (k : Keywords) (text : Text) : Option (Text × Text × Text) :=
  Narrative.clauses? (k.token form.word₁) (k.token form.word₂) (k.token form.word₃) text

theorem clauses?_purpose (k : Keywords) (text : Text) : purpose.clauses? k text =
    Narrative.clauses? (k.token .inOrderTo) (k.token .asA) (k.token .iWantTo) text := rfl

theorem clauses?_benefit (k : Keywords) (text : Text) : benefit.clauses? k text =
    Narrative.clauses? (k.token .asA) (k.token .iWantTo) (k.token .soThat) text := rfl

end Form

/-- The form of the clauses that a text is read as. -/
def form? (k : Keywords) (text : Text) : Option Form :=
  if (Form.purpose.clauses? k text).isSome then some .purpose
  else if (Form.benefit.clauses? k text).isSome then some .benefit
  else none

/-- A way to write a text with the words of a form one after another. -/
@[ext]
structure Reading (k : Keywords) (form : Form) (text : Text) where
  front : Text
  clause₁ : Text
  clause₂ : Text
  clause₃ : Text
  eq_text : front ++ k.token form.word₁ ++ clause₁ ++ k.token form.word₂ ++ clause₂ ++
    k.token form.word₃ ++ clause₃ = text

variable {k : Keywords} {form : Form} {text : Text}

namespace Reading

/-- The lengths of the texts in front of the words. -/
def lengths (r : Reading k form text) : List Nat :=
  [r.front.length, r.clause₁.length, r.clause₂.length]

/-- The narrative with the clauses of a reading. -/
def narrative (r : Reading k form text) : Narrative :=
  form.narrative (Text.trim r.clause₁) (Text.trim r.clause₂) (Text.trim r.clause₃)

/-- The text as each search comes upon it. -/
theorem text_eq (r : Reading k form text) :
    text = r.front ++ k.token form.word₁ ++ (r.clause₁ ++ k.token form.word₂ ++
      (r.clause₂ ++ k.token form.word₃ ++ r.clause₃)) :=
  r.eq_text.symm.trans (by simp only [List.append_assoc])

end Reading

/-- The clauses that are found, with the places at which they are. -/
theorem clauses?_eq_some_iff {w₁ w₂ w₃ a b c : Text} :
    clauses? w₁ w₂ w₃ text = some (a, b, c) ↔ ∃ front rest₁ clause₁ rest₂ clause₂ clause₃,
      Text.cut? w₁ text = some (front, rest₁) ∧ Text.cut? w₂ rest₁ = some (clause₁, rest₂) ∧
        Text.cut? w₃ rest₂ = some (clause₂, clause₃) ∧
        Text.trim clause₁ = a ∧ Text.trim clause₂ = b ∧ Text.trim clause₃ = c := by
  simp only [clauses?, Option.bind_eq_bind, Option.bind_eq_some_iff, Option.pure_def,
    Option.some.injEq, Prod.mk.injEq, Prod.exists]
  grind

/-- The words of a form are found one after another where the text can be written with them: each is
found at a place that leaves all of what follows the written one. -/
theorem isSome_clauses? (r : Reading k form text) : (form.clauses? k text).isSome := by
  obtain ⟨front, rest₁, h₁, hrest₁⟩ := Text.exists_cut?_of_isSuffix r.text_eq (List.suffix_refl text)
  obtain ⟨clause₁, rest₂, h₂, hrest₂⟩ := Text.exists_cut?_of_isSuffix rfl hrest₁
  obtain ⟨clause₂, clause₃, h₃, -⟩ := Text.exists_cut?_of_isSuffix rfl hrest₂
  have h := clauses?_eq_some_iff.2
    ⟨front, rest₁, clause₁, rest₂, clause₂, clause₃, h₁, h₂, h₃, rfl, rfl, rfl⟩
  rw [Form.clauses?, h, Option.isSome_some]

/-- The clauses that are found are those of the reading with the least in front of each word. -/
theorem exists_reading_of_clauses? {a b c : Text} (h : form.clauses? k text = some (a, b, c)) :
    ∃ r : Reading k form text, (∀ other : Reading k form text,
        other = r ∨ r.lengths < other.lengths) ∧ r.narrative = form.narrative a b c := by
  obtain ⟨front, rest₁, clause₁, rest₂, clause₂, clause₃, h₁, h₂, h₃, rfl, rfl, rfl⟩ :=
    clauses?_eq_some_iff.1 h
  have heq : front ++ k.token form.word₁ ++ clause₁ ++ k.token form.word₂ ++ clause₂ ++
      k.token form.word₃ ++ clause₃ = text := by
    rw [Text.eq_of_cut? h₁, Text.eq_of_cut? h₂, Text.eq_of_cut? h₃]
    simp only [List.append_assoc]
  refine ⟨⟨front, clause₁, clause₂, clause₃, heq⟩, fun other => ?_, rfl⟩
  -- The first word decides, then what is behind it is the same and the next word decides.
  simp only [Reading.lengths, List.cons_lt_cons_iff]
  rcases Text.eq_or_length_lt_of_cut? h₁ other.text_eq with ⟨hfront, hrest₁⟩ | hlt
  · rcases Text.eq_or_length_lt_of_cut? h₂ hrest₁.symm with ⟨hclause₁, hrest₂⟩ | hlt
    · rcases Text.eq_or_length_lt_of_cut? h₃ hrest₂.symm with ⟨hclause₂, hclause₃⟩ | hlt
      · exact .inl (Reading.ext hfront hclause₁ hclause₂ hclause₃)
      · exact .inr (.inr ⟨by rw [hfront], .inr ⟨by rw [hclause₁], .inl hlt⟩⟩)
    · exact .inr (.inr ⟨by rw [hfront], .inl hlt⟩)
  · exact .inr (.inl hlt)

theorem isSome_clauses?_iff :
    (form.clauses? k text).isSome ↔ Nonempty (Reading k form text) := by
  refine ⟨fun h => ?_, fun ⟨r⟩ => isSome_clauses? r⟩
  obtain ⟨⟨a, b, c⟩, habc⟩ := Option.isSome_iff_exists.1 h
  obtain ⟨r, -⟩ := exists_reading_of_clauses? habc
  exact ⟨r⟩

/-! ### Clauses on lines of their own -/

section Lines

variable {first second third : Text}

/-- The clauses of a text with one word after another on lines of their own. A clause ends in front of
the next word, also where the clause itself holds that word. -/
theorem clauses?_joinLines (h₁ : first ≠ [] ∧ '\n' ∉ first) (h₂ : second ≠ [] ∧ '\n' ∉ second)
    (h₃ : third ≠ [] ∧ '\n' ∉ third) (a b c : Text) :
    clauses? first second third (Text.joinLines [[], first ++ a, second ++ b, third ++ c]) =
      some (Text.trim (Text.before second a),
        Text.trim (Text.before third (Text.behind second a b)),
        Text.trim (Text.behind third (Text.behind second a b) c)) := by
  have htext : Text.joinLines [[], first ++ a, second ++ b, third ++ c] =
      [] ++ '\n' :: (first ++ (a ++ '\n' :: (second ++ (b ++ '\n' :: (third ++ c))))) := by
    simp [Text.joinLines, Text.join]
  have hfirst : ¬ first <:+: [] := fun h => h₁.1 (List.infix_nil.1 h)
  obtain ⟨front, hcut₁, -⟩ := Text.exists_cut?_append_break_word h₁.2 h₁.1 []
    (a ++ '\n' :: (second ++ (b ++ '\n' :: (third ++ c))))
  obtain ⟨clause₁, hcut₂, htrim₁⟩ :=
    Text.exists_cut?_append_break_word h₂.2 h₂.1 a (b ++ '\n' :: (third ++ c))
  obtain ⟨clause₂, hcut₃, htrim₂⟩ :=
    Text.exists_cut?_append_break_word h₃.2 h₃.1 (Text.behind second a b) c
  rw [Text.behind_eq_self hfirst] at hcut₁
  rw [Text.behind_append] at hcut₂
  rw [htext]
  exact clauses?_eq_some_iff.2
    ⟨front, _, clause₁, _, clause₂, _, hcut₁, hcut₂, hcut₃, htrim₁, htrim₂, rfl⟩

/-- Clauses that do not hold the next word come back. -/
theorem clauses?_joinLines_of_apart (h₁ : first ≠ [] ∧ '\n' ∉ first)
    (h₂ : second ≠ [] ∧ '\n' ∉ second) (h₃ : third ≠ [] ∧ '\n' ∉ third) {a b : Text}
    (ha : ¬ second <:+: a) (hb : ¬ third <:+: b) (c : Text) :
    clauses? first second third (Text.joinLines [[], first ++ a, second ++ b, third ++ c]) =
      some (Text.trim a, Text.trim b, Text.trim c) := by
  rw [clauses?_joinLines h₁ h₂ h₃, Text.before_eq_self ha, Text.behind_eq_self ha,
    Text.before_eq_self hb, Text.behind_eq_self hb]

end Lines

/-! ### The narrative of a text -/

theorem form?_eq_purpose_iff :
    form? k text = some .purpose ↔ Nonempty (Reading k .purpose text) := by
  rw [← isSome_clauses?_iff, form?]
  split
  · next h => exact iff_of_true rfl h
  · next h => exact iff_of_false (by split <;> simp) h

theorem form?_eq_benefit_iff :
    form? k text = some .benefit ↔
      ¬ Nonempty (Reading k .purpose text) ∧ Nonempty (Reading k .benefit text) := by
  rw [← isSome_clauses?_iff, ← isSome_clauses?_iff, form?]
  split
  · next h => exact iff_of_false (by simp) fun hno => hno.1 h
  · next h => by_cases hb : (Form.benefit.clauses? k text).isSome <;> simp [h, hb]

/-- The narrative of a text has the clauses that are found in its form. -/
theorem ofText_cases (k : Keywords) (text : Text) :
    (∃ form a b c, form? k text = some form ∧ form.clauses? k text = some (a, b, c) ∧
        ofText k text = form.narrative a b c) ∨
      form? k text = none ∧ ofText k text = .empty := by
  rw [ofText, ← Form.clauses?_purpose, ← Form.clauses?_benefit]
  cases hp : Form.purpose.clauses? k text with
  | some x =>
    obtain ⟨a, b, c⟩ := x
    exact .inl ⟨.purpose, a, b, c, by simp [form?, hp], hp, rfl⟩
  | none =>
    cases hb : Form.benefit.clauses? k text with
    | some x =>
      obtain ⟨a, b, c⟩ := x
      exact .inl ⟨.benefit, a, b, c, by simp [form?, hp, hb], hb, rfl⟩
    | none => exact .inr ⟨by simp [form?, hp, hb], rfl⟩

/-- A text is read in the form that opens with its purpose if it can be written with the words of that
form, else in the other one if it can be written with the words of that one, and else as no narrative.
The clauses are those of the reading with the least in front of the words. -/
theorem ofText_reading (k : Keywords) (text : Text) :
    (form? k text = some .purpose ↔ Nonempty (Reading k .purpose text)) ∧
      (form? k text = some .benefit ↔
        ¬ Nonempty (Reading k .purpose text) ∧ Nonempty (Reading k .benefit text)) ∧
      match form? k text with
      | some form => ∃ r : Reading k form text,
          (∀ other : Reading k form text, other = r ∨ r.lengths < other.lengths) ∧
            ofText k text = r.narrative
      | none => ofText k text = .empty := by
  refine ⟨form?_eq_purpose_iff, form?_eq_benefit_iff, ?_⟩
  rcases ofText_cases k text with ⟨form, a, b, c, hform, hclauses, hread⟩ | ⟨hform, hread⟩
  · obtain ⟨r, hfirst, hr⟩ := exists_reading_of_clauses? hclauses
    rw [hform]
    exact ⟨r, hfirst, hread.trans hr.symm⟩
  · rw [hform]
    exact hread

end PlainStory.Narrative
