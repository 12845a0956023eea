import PlainStory.Proofs.Text.Spacing
import PlainStory.Story.Opener

/-!
# What lines open

What a line opens depends on the blanks neither at its start nor, where no token ends with one, at its
end.
-/

namespace PlainStory

/-- Tokens that are not empty and have no blanks at their ends. -/
structure Keywords.Tidy (k : Keywords) : Prop where
  ne_nil (w : Keyword) : k.token w ≠ []
  trim (w : Keyword) : Text.trim (k.token w) = k.token w

theorem Keywords.tidy_english : Keywords.Tidy .english where
  ne_nil w := by cases w <;> decide
  trim w := by cases w <;> decide

theorem Keywords.Tidy.trimEnd {k : Keywords} (hk : k.Tidy) (w : Keyword) :
    Text.trimEnd (k.token w) = k.token w := Text.trimEnd_of_trim (hk.trim w)

/-- The keyword of an opener. A step is opened by any of several. -/
def Opener.keyword? : Opener → Option Keyword
  | scenario => some .scenario
  | narrative => some .narrative
  | givenStories => some .givenStories
  | examples => some .examples
  | step => none

namespace Text

variable {word s t : Text}

/-- A word that does not end with a blank begins a text or goes on beyond the blanks at its end. -/
theorem isPrefix_append_of_blank (hword : trimEnd word = word) (ht : ∀ c ∈ t, isBlank c = true) :
    word <+: s ++ t ↔ word <+: s := by
  refine ⟨?_, fun h => h.trans (List.prefix_append s t)⟩
  rintro ⟨rest, h⟩
  rcases List.append_eq_append_iff.1 h with ⟨w, rfl, -⟩ | ⟨w, hw, rfl⟩
  · exact List.prefix_append word w
  · have hblank : ∀ c ∈ w, isBlank c = true := fun c hc => ht c (List.mem_append_left rest hc)
    rw [hw, trimEnd_append_of_blank s hblank, ← hw] at hword
    obtain ⟨v, -, hv⟩ := exists_trimEnd s
    exact ⟨v, by rw [← hword, ← hv]⟩

theorem after?_append_of_blank (hword : trimEnd word = word) (ht : ∀ c ∈ t, isBlank c = true) :
    after? word (s ++ t) = (after? word s).map (· ++ t) := by
  cases h : after? word s with
  | none =>
    rw [after?_eq_none_iff, ← isPrefix_append_of_blank hword ht] at h
    exact after?_eq_none_iff.2 h
  | some rest =>
    rw [after?_eq_some_iff.1 h, List.append_assoc]
    exact after?_eq_some_iff.2 rfl

theorem startsWith_append_of_blank (hword : trimEnd word = word)
    (ht : ∀ c ∈ t, isBlank c = true) : startsWith word (s ++ t) = startsWith word s := by
  rw [startsWith, after?_append_of_blank hword ht, Option.isSome_map, startsWith]

/-- A text that begins with a word, blanks aside, begins with it whatever follows. -/
theorem trimStart_append_of_prefix (hne : word ≠ []) (h : word <+: trimStart s) (t : Text) :
    trimStart (s ++ t) = trimStart s ++ t := by
  refine trimStart_append_of_not_blank ?_ t
  rw [← Bool.not_eq_true]
  intro hblank
  rw [trimStart_eq_nil_of_blank (List.all_eq_true.1 hblank), List.prefix_nil] at h
  exact hne h

/-- Where blanks at the end of a text are gone by trimming its start, nothing of it is left. -/
theorem trimStart_append_blank (ht : ∀ c ∈ t, isBlank c = true) :
    trimStart (s ++ t) = trimStart s ++ t ∨ trimStart (s ++ t) = [] ∧ trimStart s = [] := by
  cases hs : blank s with
  | false => exact .inl (trimStart_append_of_not_blank hs t)
  | true =>
    have hall := List.all_eq_true.1 hs
    refine .inr ⟨?_, trimStart_eq_nil_of_blank hall⟩
    rw [trimStart_append_of_blank hall, trimStart_eq_nil_of_blank ht]

end Text

namespace Keywords

variable {k : Keywords} {line t : Text}

theorem opener?_of_trimStart {m : Text} (h : Text.trimStart line = Text.trimStart m) :
    k.opener? line = k.opener? m := by
  rw [opener?, h, opener?]

theorem beginsWith_trimStart (line : Text) :
    beginsWith (Text.trimStart line) = beginsWith line := by
  funext word
  rw [beginsWith, beginsWith, Text.trimStart_trimStart]

theorem startsStep_trimStart (line : Text) :
    k.startsStep (Text.trimStart line) = k.startsStep line := by
  rw [startsStep, startsStep, startingWord?, startingWord?, isComment, isComment,
    beginsWith_trimStart, Text.trimStart_trimStart]

theorem after?_token_nil (hk : ∀ w, k.token w ≠ []) (w : Keyword) :
    Text.after? (k.token w) [] = none := by
  rw [Text.after?_eq_none_iff, List.prefix_nil]
  exact hk w

theorem opener?_nil (hk : ∀ w, k.token w ≠ []) : k.opener? [] = none := by
  have h := after?_token_nil hk
  simp [opener?, startsStep, startingWord?, startingWords, isComment, beginsWith, Text.startsWith,
    Text.trimStart, h]

theorem opener?_of_blank (hk : ∀ w, k.token w ≠ []) (h : Text.blank line = true) :
    k.opener? line = none := by
  rw [← opener?_nil hk]
  exact opener?_of_trimStart (Text.trimStart_eq_nil_of_blank (List.all_eq_true.1 h))

theorem startsWith_of_opener? {o : Opener} {w : Keyword} (hw : o.keyword? = some w)
    (h : k.opener? line = some o) :
    Text.startsWith (k.token w) (Text.trimStart line) = true := by
  simp only [opener?] at h
  cases o <;> simp only [Opener.keyword?, Option.some.injEq, reduceCtorEq] at hw <;> subst hw <;>
    grind

theorem startsStep_of_opener? (h : k.opener? line = some .step) : k.startsStep line = true := by
  rw [← startsStep_trimStart]
  simp only [opener?] at h
  grind

/-- What follows a text that starts with a keyword follows what the text says after it. -/
theorem withoutKeyword_append {w : Keyword} {s : Text} (hne : k.token w ≠ [])
    (h : Text.startsWith (k.token w) (Text.trimStart s) = true) (t : Text) :
    k.withoutKeyword w (s ++ t) = k.withoutKeyword w s ++ t := by
  obtain ⟨rest, hrest⟩ := Text.startsWith_iff.1 h
  have htrim := Text.trimStart_append_of_prefix hne ⟨rest, hrest.symm⟩ t
  have hafter : ∀ u, Text.after? (k.token w) (k.token w ++ u) = some u := fun u =>
    Text.after?_eq_some_iff.2 rfl
  rw [withoutKeyword, withoutKeyword, htrim, hrest, List.append_assoc, hafter, hafter]
  rfl

theorem not_blank_of_opener? (hk : ∀ w, k.token w ≠ []) {o : Opener}
    (h : k.opener? line = some o) : Text.blank line = false := by
  rw [← Bool.not_eq_true]
  intro hblank
  rw [opener?_of_blank hk hblank] at h
  exact absurd h nofun

/-! ### More lines behind the first -/

theorem atWordEnd_append {s t : Text} (hs : atWordEnd s = true) (ht : atWordEnd t = true) :
    atWordEnd (s ++ t) = true := by
  cases s with
  | nil => exact ht
  | cons c cs => exact hs

theorem beginsWith_append {word s t : Text} (hne : word ≠ []) (h : beginsWith s word = true)
    (ht : atWordEnd t = true) : beginsWith (s ++ t) word = true := by
  rw [beginsWith] at h
  cases hafter : Text.after? word (Text.trimStart s) with
  | none =>
    rw [hafter] at h
    exact absurd h nofun
  | some rest =>
    rw [hafter] at h
    have hs := Text.after?_eq_some_iff.1 hafter
    have htrim := Text.trimStart_append_of_prefix hne ⟨rest, hs.symm⟩ t
    have happend : Text.after? word (Text.trimStart (s ++ t)) = some (rest ++ t) := by
      rw [htrim, hs, List.append_assoc]
      exact Text.after?_eq_some_iff.2 rfl
    rw [beginsWith, happend]
    exact atWordEnd_append h ht

/-- A text starts a step if its first line does. -/
theorem startsStep_append (hk : ∀ w, k.token w ≠ []) {s t : Text} (h : k.startsStep s = true)
    (ht : atWordEnd t = true) : k.startsStep (s ++ t) = true := by
  rw [startsStep, Bool.or_eq_true] at h ⊢
  rcases h with h | h
  · obtain ⟨word, hword, hbegins⟩ := List.find?_isSome.1 h
    obtain ⟨w, -, rfl⟩ := List.mem_map.1 hword
    exact .inl (List.find?_isSome.2 ⟨_, hword, beginsWith_append (hk w) hbegins ht⟩)
  · obtain ⟨rest, hrest⟩ := Text.startsWith_iff.1 h
    have htrim := Text.trimStart_append_of_prefix (hk .comment) ⟨rest, hrest.symm⟩ t
    refine .inr (Text.startsWith_iff.2 ⟨rest ++ t, ?_⟩)
    rw [htrim, hrest, List.append_assoc]

/-! ### Blanks at the end of a line -/

section

variable (ht : ∀ c ∈ t, Text.isBlank c = true)

include ht

theorem beginsWith_append_of_blank {word : Text} (hword : Text.trimEnd word = word) (s : Text) :
    beginsWith (s ++ t) word = beginsWith s word := by
  rcases Text.trimStart_append_blank (s := s) ht with hs | ⟨hs, hs'⟩
  · rw [beginsWith, beginsWith, hs, Text.after?_append_of_blank hword ht]
    cases Text.after? word (Text.trimStart s) with
    | none => rfl
    | some rest =>
      cases rest with
      | cons c cs => rfl
      | nil =>
        cases t with
        | nil => rfl
        | cons c cs => exact ht c List.mem_cons_self
  · rw [beginsWith, beginsWith, hs, hs']

theorem startsStep_append_of_blank (hk : k.Tidy) (s : Text) :
    k.startsStep (s ++ t) = k.startsStep s := by
  have hstarting : k.startingWord? (s ++ t) = k.startingWord? s := by
    simp only [startingWord?, startingWords, List.map_cons, List.map_nil, List.find?_cons,
      List.find?_nil, beginsWith_append_of_blank ht (hk.trimEnd _)]
  have hcomment : k.isComment (s ++ t) = k.isComment s := by
    rw [isComment, isComment]
    rcases Text.trimStart_append_blank (s := s) ht with hs | ⟨hs, hs'⟩
    · rw [hs, Text.startsWith_append_of_blank (hk.trimEnd _) ht]
    · rw [hs, hs']
  rw [startsStep, startsStep, hstarting, hcomment]

/-- Blanks at the end of a line do not change what it opens. -/
theorem opener?_append_of_blank (hk : k.Tidy) (line : Text) :
    k.opener? (line ++ t) = k.opener? line := by
  rcases Text.trimStart_append_blank (s := line) ht with hs | ⟨hs, hs'⟩
  · simp only [opener?, hs, Text.startsWith_append_of_blank (hk.trimEnd _) ht,
      startsStep_append_of_blank ht hk]
  · exact opener?_of_trimStart (hs.trans hs'.symm)

end

theorem opener?_trimEnd (hk : k.Tidy) (line : Text) :
    k.opener? (Text.trimEnd line) = k.opener? line := by
  obtain ⟨w, hw, hline⟩ := Text.exists_trimEnd line
  conv_rhs => rw [hline, opener?_append_of_blank hw hk]

end Keywords

end PlainStory
