import Mathlib.Data.List.Forall2
import PlainStory.Argument.Conversion
import PlainStory.Proofs.Decimal.Integer
import PlainStory.Proofs.Text.Spacing
import PlainStory.Proofs.Text.Splitting

/-!
# Lists as arguments

The conversion of a list undoes the joining of its elements. No element is lost or added: an empty
text between two separators is an element of a list of texts, and an element of a list of integers
that writes no integer makes the whole conversion fail.
-/

namespace PlainStory

open Decimal

namespace Conversion

/-! ### One conversion after another -/

section ConvertAll

variable {α : Type} {f : Text → Except InvalidParameter α}

theorem convertAll_eq_ok_of_forall₂ {ss : List Text} {as : List α}
    (h : List.Forall₂ (fun s a => f s = .ok a) ss as) : convertAll f ss = .ok as := by
  induction h with
  | nil => rfl
  | cons hs _ ih =>
    rw [convertAll, hs, ih]
    rfl

/-- The error is that of the first text that does not convert. -/
theorem convertAll_append_cons {front back : List Text} {s : Text} {e : InvalidParameter}
    (hfront : ∀ t ∈ front, ∃ a, f t = .ok a) (hs : f s = .error e) :
    convertAll f (front ++ s :: back) = .error e := by
  induction front with
  | nil => rw [List.nil_append, convertAll, hs]
  | cons t ts ih =>
    obtain ⟨⟨a, ha⟩, hts⟩ := List.forall_mem_cons.1 hfront
    rw [List.cons_append, convertAll, ha, ih hts]
    rfl

end ConvertAll

/-! ### Elements -/

theorem integer_eq_ok_iff {raw : Text} {n : Int64} :
    integer raw = .ok n ↔ IsNumeral (Text.trim raw) n.toInt := by
  rw [← integer?_eq_ok_iff, integer]
  cases integer? (Text.trim raw) with
  | error e => exact ⟨nofun, nofun⟩
  | ok m => rw [Except.mapError, Except.ok.injEq, Except.ok.injEq]

/-- A text that is refused is the value of the error. -/
theorem exists_integer_eq_error (raw : Text)
    (h : ¬∃ n : Int64, IsNumeral (Text.trim raw) n.toInt) :
    ∃ e, integer raw = .error e ∧ e.value = raw := by
  cases hread : integer? (Text.trim raw) with
  | error e => exact ⟨⟨raw, e.message⟩, by rw [integer, hread]; rfl, rfl⟩
  | ok n => exact absurd ⟨n, integer?_eq_ok_iff.1 hread⟩ h

variable {separator : Text}

theorem elements_of_blank {raw : Text} (h : Text.blank raw = true) :
    elements separator raw = [] := if_pos h

theorem elements_of_not_blank {raw : Text} (h : Text.blank raw = false) :
    elements separator raw = (Text.splitBy separator raw).map Text.trim :=
  if_neg (by rw [h]; exact nofun)

theorem elements_join (hsep : separator ≠ []) {parts : List Text}
    (hdisjoint : ∀ s ∈ parts, ∀ c ∈ s, c ∉ separator)
    (hblank : parts = [] ∨ Text.blank (Text.join separator parts) = false) :
    elements separator (Text.join separator parts) = parts.map Text.trim := by
  by_cases hnil : parts = []
  · subst hnil
    exact elements_of_blank rfl
  · rw [elements_of_not_blank (hblank.resolve_left hnil), Text.splitBy_join hsep hnil hdisjoint]

theorem blank_join_cons {s : Text} (hs : Text.blank s = false) (ss : List Text) :
    Text.blank (Text.join separator (s :: ss)) = false := by
  by_cases hlast : ss = []
  · subst hlast
    simpa [Text.join] using hs
  · rw [Text.join_cons hlast, Text.blank_append, Text.blank_append, hs]
    rfl

/-! ### Lists of integers -/

/-- A text that writes an integer in decimal, with any blanks around it. -/
def Writes (s : Text) (n : Int64) : Prop :=
  ∃ front numeral back, s = front ++ numeral ++ back ∧
    (∀ c ∈ front, Text.isBlank c = true) ∧ (∀ c ∈ back, Text.isBlank c = true) ∧
    IsNumeral numeral n.toInt

variable {s : Text} {n : Int64}

theorem Writes.isNumeral_trim (h : Writes s n) : IsNumeral (Text.trim s) n.toInt := by
  obtain ⟨front, numeral, back, rfl, hfront, hback, hnumeral⟩ := h
  rw [Text.trim_append_append hfront hback, Text.trim_of_no_blank hnumeral.isBlank]
  exact hnumeral

theorem Writes.not_blank (h : Writes s n) : Text.blank s = false := by
  obtain ⟨front, numeral, back, rfl, -, -, hnumeral⟩ := h
  obtain ⟨c, hc⟩ := List.exists_mem_of_ne_nil numeral hnumeral.ne_nil
  have hmem : c ∈ front ++ numeral ++ back := by simp [hc]
  exact Text.blank_eq_false_iff.2 ⟨c, hmem, hnumeral.isBlank c hc⟩

theorem Writes.mem (h : Writes s n) :
    ∀ c ∈ s, c.isDigit = true ∨ c = '+' ∨ c = '-' ∨ Text.isBlank c = true := by
  obtain ⟨front, numeral, back, rfl, hfront, hback, hnumeral⟩ := h
  intro c hc
  rw [List.mem_append, List.mem_append] at hc
  rcases hc with (hc | hc) | hc
  · exact .inr (.inr (.inr (hfront c hc)))
  · rcases hnumeral.mem c hc with hdigit | hplus | hminus
    · exact .inl hdigit
    · exact .inr (.inl hplus)
    · exact .inr (.inr (.inl hminus))
  · exact .inr (.inr (.inr (hback c hc)))

theorem exists_writes_of_mem {parts : List Text} {ns : List Int64}
    (h : List.Forall₂ Writes parts ns) : ∀ s ∈ parts, ∃ n, Writes s n := by
  induction h with
  | nil => exact nofun
  | cons hs _ ih => exact List.forall_mem_cons.2 ⟨⟨_, hs⟩, ih⟩

/-- A separator without digits, signs and blanks parts texts that write integers. -/
theorem elements_join_of_writes (hsep : separator ≠ [])
    (hother : ∀ c ∈ separator,
      c.isDigit = false ∧ c ≠ '+' ∧ c ≠ '-' ∧ Text.isBlank c = false)
    {parts : List Text} {ns : List Int64} (h : List.Forall₂ Writes parts ns) :
    elements separator (Text.join separator parts) = parts.map Text.trim := by
  have hdisjoint : ∀ s ∈ parts, ∀ c ∈ s, c ∉ separator := by
    intro s hs c hc hcsep
    obtain ⟨n, hn⟩ := exists_writes_of_mem h s hs
    obtain ⟨hdigit, hplus, hminus, hblank⟩ := hother c hcsep
    rcases hn.mem c hc with hc | hc | hc | hc
    · exact absurd (hc.symm.trans hdigit) nofun
    · exact hplus hc
    · exact hminus hc
    · exact absurd (hc.symm.trans hblank) nofun
  apply elements_join hsep hdisjoint
  cases h with
  | nil => exact .inl rfl
  | cons hs _ => exact .inr (blank_join_cons hs.not_blank _)

theorem convertAll_integer_of_writes {parts : List Text} {ns : List Int64}
    (h : List.Forall₂ Writes parts ns) :
    convertAll integer (parts.map Text.trim) = .ok ns := by
  apply convertAll_eq_ok_of_forall₂
  rw [List.forall₂_map_left_iff]
  refine h.imp fun s n hs => ?_
  rw [integer_eq_ok_iff, Text.trim_trim]
  exact hs.isNumeral_trim

/-- The first element that is no numeral in range decides what becomes of a list. -/
theorem exists_convertAll_integer_eq_error {parts : List Text}
    (h : ∃ s ∈ parts, ¬∃ n : Int64, IsNumeral (Text.trim s) n.toInt) :
    ∃ front s back e, parts = front ++ s :: back ∧
      (∀ t ∈ front, ∃ n : Int64, IsNumeral (Text.trim t) n.toInt) ∧
      (¬∃ n : Int64, IsNumeral (Text.trim s) n.toInt) ∧
      e.value = Text.trim s ∧ integer (Text.trim s) = .error e ∧
      convertAll integer (parts.map Text.trim) = .error e := by
  classical
  obtain ⟨s, hs⟩ : ∃ s, parts.find? (fun s => ¬∃ n : Int64, IsNumeral (Text.trim s) n.toInt) =
      some s := by
    rw [← Option.isSome_iff_exists, List.find?_isSome]
    simpa using h
  obtain ⟨hnone, front, back, rfl, hfront⟩ := List.find?_eq_some_iff_append.1 hs
  simp only [decide_eq_true_eq] at hnone
  have hfront' : ∀ t ∈ front, ∃ n : Int64, IsNumeral (Text.trim t) n.toInt := by
    simpa using hfront
  obtain ⟨e, he, hvalue⟩ := exists_integer_eq_error (Text.trim s) (by rwa [Text.trim_trim])
  refine ⟨front, s, back, e, rfl, hfront', hnone, hvalue, he, ?_⟩
  rw [List.map_append, List.map_cons]
  refine convertAll_append_cons (fun t ht => ?_) he
  obtain ⟨u, hu, rfl⟩ := List.mem_map.1 ht
  obtain ⟨n, hn⟩ := hfront' u hu
  exact ⟨n, integer_eq_ok_iff.2 (by rwa [Text.trim_trim])⟩

end Conversion

namespace Converters

open Conversion

theorem convert_textList (separator raw : Text) :
    convert { separator } raw .textList = .ok (.texts (elements separator raw)) := rfl

theorem convert_integerList (separator raw : Text) :
    convert { separator } raw .integerList =
      (convertAll integer (elements separator raw)).map .integers := rfl

theorem convert_integer (separator raw : Text) :
    convert { separator } raw .integer = (integer raw).map .integer := rfl

/-- The conversion of lists undoes joining, of texts that share no character with the separator and
of numerals with blanks around them where the separator has no character of those. An element that
is no numeral of an integer in range makes a list of integers fail, with the error of the first such
element. -/
theorem convert_join (separator : Text) :
    (separator ≠ [] → ∀ parts : List Text, (∀ s ∈ parts, Text.trim s = s) →
      (∀ s ∈ parts, ∀ c ∈ s, c ∉ separator) →
      (parts = [] ∨ Text.blank (Text.join separator parts) = false) →
      convert { separator } (Text.join separator parts) .textList = .ok (.texts parts)) ∧
    (separator ≠ [] →
      (∀ c ∈ separator, c.isDigit = false ∧ c ≠ '+' ∧ c ≠ '-' ∧ Text.isBlank c = false) →
      ∀ parts ns, List.Forall₂ Writes parts ns →
      convert { separator } (Text.join separator parts) .integerList = .ok (.integers ns)) ∧
    (∀ (n : Int64) front back, (∀ c ∈ front, Text.isBlank c = true) →
      (∀ c ∈ back, Text.isBlank c = true) →
      Writes (front ++ Text.ofInt n.toInt ++ back) n) ∧
    (∀ raw, Text.blank raw = false →
      (∃ s ∈ Text.splitBy separator raw, ¬∃ n : Int64, IsNumeral (Text.trim s) n.toInt) →
      ∃ front s back e, Text.splitBy separator raw = front ++ s :: back ∧
        (∀ t ∈ front, ∃ n : Int64, IsNumeral (Text.trim t) n.toInt) ∧
        (¬∃ n : Int64, IsNumeral (Text.trim s) n.toInt) ∧
        e.value = Text.trim s ∧
        convert { separator } (Text.trim s) .integer = .error e ∧
        convert { separator } raw .integerList = .error e) := by
  refine ⟨?_, ?_, ?_, ?_⟩
  · intro hsep parts htrim hdisjoint hblank
    have hparts : parts.map Text.trim = parts :=
      (List.map_congr_left htrim).trans (List.map_id' parts)
    rw [convert_textList, elements_join hsep hdisjoint hblank, hparts]
  · intro hsep hother parts ns hwrites
    rw [convert_integerList, elements_join_of_writes hsep hother hwrites,
      convertAll_integer_of_writes hwrites]
    rfl
  · intro n front back hfront hback
    exact ⟨front, _, back, rfl, hfront, hback, isNumeral_ofInt n.toInt⟩
  · intro raw hraw hbad
    obtain ⟨front, s, back, e, hparts, hfront, hs, hvalue, he, hall⟩ :=
      exists_convertAll_integer_eq_error hbad
    refine ⟨front, s, back, e, hparts, hfront, hs, hvalue, ?_, ?_⟩
    · rw [convert_integer, he]
      rfl
    · rw [convert_integerList, elements_of_not_blank hraw, hall]
      rfl

/-- Blanks of a separator are not trimmed off, the limits of the range are reached, and what lies
behind them is refused before anything after it is read. -/
theorem convert_join_of_limits :
    convert { separator := "\t" } "\ta b\t" .textList =
        .ok (.texts [("" : Text), "a b", ""]) ∧
      convert { separator := "||" } " -9223372036854775808||9223372036854775807" .integerList =
        .ok (.integers [Int64.minValue, Int64.maxValue]) ∧
      ∃ e, convert { separator := "||" } "9223372036854775808 ||x" .integerList = .error e ∧
        e.value = "9223372036854775808" := by
  refine ⟨?_, ?_, ?_⟩
  · have htexts := (convert_join "\t").1 (by decide +kernel) [("" : Text), "a b", ""]
    exact htexts (by decide +kernel) (by simp) (.inr (by decide +kernel))
  · obtain ⟨-, hintegers, hwrites, -⟩ := convert_join "||"
    have hjoin : (" -9223372036854775808||9223372036854775807" : Text) =
        Text.join "||" [(" " : Text) ++ Text.ofInt Int64.minValue.toInt ++ [],
          [] ++ Text.ofInt Int64.maxValue.toInt ++ []] := by
      decide +kernel
    have hmin := hwrites Int64.minValue " " [] (List.forall_mem_singleton.2 rfl) nofun
    have hmax := hwrites Int64.maxValue [] [] nofun nofun
    rw [hjoin]
    exact hintegers (by decide +kernel) (by simp [Text.isBlank]) _ _
      (.cons hmin (.cons hmax .nil))
  · obtain ⟨-, -, -, hrefused⟩ := convert_join "||"
    have hsplit : Text.splitBy "||" "9223372036854775808 ||x" =
        [("9223372036854775808 " : Text), "x"] := by
      have hjoin : ("9223372036854775808 ||x" : Text) =
          Text.join "||" [("9223372036854775808 " : Text), "x"] := by
        decide +kernel
      rw [hjoin, Text.splitBy_join (by decide +kernel) (List.cons_ne_nil _ _) (by simp)]
    have hout : ¬∃ n : Int64, IsNumeral (Text.trim "9223372036854775808 ") n.toInt := by
      rintro ⟨n, hn⟩
      have hread := integer?_eq_ok_iff.2 hn
      have herror : integer? (Text.trim "9223372036854775808 ") = .error .tooLarge := by
        decide +kernel
      rw [herror] at hread
      cases hread
    obtain ⟨front, s, back, e, hparts, hfront, -, hvalue, -, he⟩ :=
      hrefused "9223372036854775808 ||x" (by decide +kernel) ⟨_, hsplit ▸ List.mem_cons_self, hout⟩
    refine ⟨e, he, ?_⟩
    rw [hsplit] at hparts
    cases front with
    | nil =>
      obtain ⟨rfl, -⟩ := List.cons.inj hparts
      rw [hvalue]
      decide +kernel
    | cons t ts =>
      obtain ⟨rfl, -⟩ := List.cons.inj hparts
      exact absurd (hfront _ List.mem_cons_self) hout

end Converters

end PlainStory
