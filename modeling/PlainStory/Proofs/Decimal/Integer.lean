import Mathlib.Tactic.Ring
import PlainStory.Decimal.Integer

/-!
# Numerals of integers

What the reader of integers accepts. A numeral is an optional sign and at least one digit, and the
reader gives an integer exactly for its numerals: a numeral out of range is not wrapped around but
refused, since it stays out of range whatever digits follow the one with which it left.
-/

namespace PlainStory

namespace Decimal

/-! ### Numerals -/

/-- A non-empty sequence of digits. -/
structure IsDigits (ds : Text) : Prop where
  ne_nil : ds ≠ []
  isDigit : ∀ c ∈ ds, c.isDigit = true

/-- The texts that write an integer in decimal. Leading zeros are allowed. -/
inductive IsNumeral : Text → Int → Prop where
  | unsigned {ds : Text} (h : IsDigits ds) : IsNumeral ds (Nat.ofDigitChars 10 ds 0)
  | positive {ds : Text} (h : IsDigits ds) : IsNumeral ('+' :: ds) (Nat.ofDigitChars 10 ds 0)
  | negative {ds : Text} (h : IsDigits ds) : IsNumeral ('-' :: ds) (-(Nat.ofDigitChars 10 ds 0))

theorem isDigits_ofNat (n : Nat) : IsDigits (Text.ofNat n) where
  ne_nil := Nat.toDigits_ne_nil
  isDigit _ hc := Nat.isDigit_of_mem_toDigits (by decide) (by decide) hc

/-- An integer as it is shown is a numeral of itself. -/
theorem isNumeral_ofInt (n : Int) : IsNumeral (Text.ofInt n) n := by
  have hvalue : ∀ m : Nat, Nat.ofDigitChars 10 (Text.ofNat m) 0 = m := fun _ =>
    Nat.ofDigitChars_ten_toDigits
  cases n with
  | ofNat m =>
    have h := IsNumeral.unsigned (isDigits_ofNat m)
    rw [hvalue] at h
    exact h
  | negSucc m =>
    have h := IsNumeral.negative (isDigits_ofNat (m + 1))
    rw [hvalue] at h
    exact h

theorem IsNumeral.mem {s : Text} {n : Int} (h : IsNumeral s n) :
    ∀ c ∈ s, c.isDigit = true ∨ c = '+' ∨ c = '-' := by
  have hdigits : ∀ {ds : Text}, IsDigits ds → ∀ c ∈ ds, c.isDigit = true ∨ c = '+' ∨ c = '-' :=
    fun hds c hc => .inl (hds.isDigit c hc)
  cases h with
  | unsigned hds => exact hdigits hds
  | positive hds => exact List.forall_mem_cons.2 ⟨.inr (.inl rfl), hdigits hds⟩
  | negative hds => exact List.forall_mem_cons.2 ⟨.inr (.inr rfl), hdigits hds⟩

theorem IsNumeral.ne_nil {s : Text} {n : Int} (h : IsNumeral s n) : s ≠ [] := by
  cases h with
  | unsigned hds => exact hds.ne_nil
  | positive => exact List.cons_ne_nil _ _
  | negative => exact List.cons_ne_nil _ _

theorem isBlank_of_isDigit {c : Char} (hc : c.isDigit = true) : Text.isBlank c = false := by
  have hrange : 48 ≤ c.toNat ∧ c.toNat ≤ 57 := by
    simpa [Char.isDigit, UInt32.le_iff_toNat_le] using hc
  simp only [Text.isBlank, Bool.or_eq_false_iff, Bool.and_eq_false_iff, decide_eq_false_iff_not,
    beq_eq_false_iff_ne]
  omega

theorem IsNumeral.isBlank {s : Text} {n : Int} (h : IsNumeral s n) :
    ∀ c ∈ s, Text.isBlank c = false := by
  intro c hc
  rcases h.mem c hc with hdigit | rfl | rfl
  · exact isBlank_of_isDigit hdigit
  · rfl
  · rfl

/-! ### Reading digits -/

theorem digit?_of_isDigit {c : Char} (hc : c.isDigit = true) :
    digit? c = some (c.toNat - '0'.toNat) := by
  simp only [Char.isDigit, ge_iff_le, Bool.and_eq_true, decide_eq_true_eq] at hc
  exact if_pos hc

theorem digit?_of_not_isDigit {c : Char} (hc : ¬c.isDigit = true) : digit? c = none := by
  simp only [Char.isDigit, ge_iff_le, Bool.and_eq_true, decide_eq_true_eq] at hc
  exact if_neg hc

/-- The integers of 64 bits. -/
def InRange (n : Int) : Prop := Int64.minValue.toInt ≤ n ∧ n ≤ Int64.maxValue.toInt

theorem inRange_toInt (n : Int64) : InRange n.toInt := ⟨n.minValue_le_toInt, n.toInt_le⟩

theorem InRange.toInt_ofInt {n : Int} (h : InRange n) : (Int64.ofInt n).toInt = n := by
  obtain ⟨hmin, hmax⟩ := h
  rw [Int64.toInt_minValue] at hmin
  rw [Int64.toInt_maxValue] at hmax
  exact Int64.toInt_ofInt_of_le hmin (by omega)

variable {sign : Int}

/-- A value that has left the range does not come back to it by growing. -/
theorem InRange.of_le (hsign : sign = 1 ∨ sign = -1) {a b : Nat} (hab : a ≤ b)
    (h : InRange (sign * b)) : InRange (sign * a) := by
  have hmin : Int64.minValue.toInt ≤ 0 := by decide
  have hmax : 0 ≤ Int64.maxValue.toInt := by decide
  unfold InRange at h ⊢
  obtain rfl | rfl := hsign
  · omega
  · omega

theorem le_ofDigitChars (cs : Text) (a : Nat) : a ≤ Nat.ofDigitChars 10 cs a := by
  induction cs generalizing a with
  | nil => exact Nat.le_refl a
  | cons c cs ih =>
    rw [Nat.ofDigitChars_cons]
    have h := ih (10 * a + (c.toNat - '0'.toNat))
    omega

/-- What a digit does to the value of the digits before it. -/
theorem integerFrom_cons {c : Char} (hc : c.isDigit = true) (a : Nat) (cs : Text) :
    integerFrom sign (sign * a) (c :: cs) =
      let next : Int := sign * (10 * a + (c.toNat - '0'.toNat) : Nat)
      if next < Int64.minValue.toInt then .error .tooSmall
      else if Int64.maxValue.toInt < next then .error .tooLarge
      else integerFrom sign next cs := by
  have hnext : sign * a * 10 + sign * (c.toNat - '0'.toNat : Nat) =
      sign * (10 * a + (c.toNat - '0'.toNat) : Nat) := by
    push_cast
    ring
  rw [integerFrom, digit?_of_isDigit hc]
  simp only [hnext]

theorem integerFrom_cons_of_inRange {c : Char} (hc : c.isDigit = true) {a : Nat}
    (h : InRange (sign * (10 * a + (c.toNat - '0'.toNat) : Nat))) (cs : Text) :
    integerFrom sign (sign * a) (c :: cs) =
      integerFrom sign (sign * (10 * a + (c.toNat - '0'.toNat) : Nat)) cs := by
  rw [integerFrom_cons hc, if_neg (Int.not_lt.2 h.1), if_neg (Int.not_lt.2 h.2)]

theorem integerFrom_cons_ne_ok {c : Char} {a : Nat}
    (h : c.isDigit = true → ¬InRange (sign * (10 * a + (c.toNat - '0'.toNat) : Nat)))
    (cs : Text) (n : Int) : integerFrom sign (sign * a) (c :: cs) ≠ .ok n := by
  by_cases hc : c.isDigit = true
  · rw [integerFrom_cons hc]
    intro hok
    simp only at hok
    split at hok
    · cases hok
    · split at hok
      · cases hok
      · next hmin hmax => exact h hc ⟨Int.not_lt.1 hmin, Int.not_lt.1 hmax⟩
  · rw [integerFrom, digit?_of_not_isDigit hc]
    exact nofun

/-- From a value in range on, the digits are read to the end exactly if the value of them all is in
range. -/
theorem integerFrom_eq_ok_iff (hsign : sign = 1 ∨ sign = -1) {a : Nat} (ha : InRange (sign * a))
    (cs : Text) (n : Int) :
    integerFrom sign (sign * a) cs = .ok n ↔
      (∀ c ∈ cs, c.isDigit = true) ∧ InRange n ∧ n = sign * Nat.ofDigitChars 10 cs a := by
  induction cs generalizing a with
  | nil =>
    rw [integerFrom, Except.ok.injEq, Nat.ofDigitChars_nil]
    constructor
    · rintro rfl
      exact ⟨nofun, ha, rfl⟩
    · rintro ⟨-, -, rfl⟩
      rfl
  | cons c cs ih =>
    rw [List.forall_mem_cons, Nat.ofDigitChars_cons]
    by_cases hnext : c.isDigit = true ∧ InRange (sign * (10 * a + (c.toNat - '0'.toNat) : Nat))
    · rw [integerFrom_cons_of_inRange hnext.1 hnext.2, ih hnext.2]
      simp only [hnext.1, true_and]
    · constructor
      · intro h
        exact absurd h (integerFrom_cons_ne_ok (not_and.1 hnext) cs n)
      · rintro ⟨⟨hc, -⟩, hn, rfl⟩
        exact absurd ⟨hc, hn.of_le hsign (le_ofDigitChars cs _)⟩ hnext

theorem integerDigits_eq_ok_iff (hsign : sign = 1 ∨ sign = -1) {cs : Text} {n : Int} :
    integerDigits sign cs = .ok n ↔
      IsDigits cs ∧ InRange n ∧ n = sign * Nat.ofDigitChars 10 cs 0 := by
  cases cs with
  | nil => exact ⟨nofun, fun h => absurd rfl h.1.ne_nil⟩
  | cons c cs =>
    have hzero : sign * (0 : Nat) = 0 := Int.mul_zero sign
    have hrange : InRange (sign * (0 : Nat)) := by
      rw [hzero]
      exact inRange_toInt 0
    have h := integerFrom_eq_ok_iff hsign hrange (c :: cs) n
    rw [hzero] at h
    rw [integerDigits, h]
    · exact ⟨fun ⟨hall, hn⟩ => ⟨⟨List.cons_ne_nil c cs, hall⟩, hn⟩,
        fun ⟨hds, hn⟩ => ⟨hds.isDigit, hn⟩⟩
    · exact nofun

theorem map_integerDigits_eq_ok_iff (hsign : sign = 1 ∨ sign = -1) {cs : Text} {n : Int64} :
    (integerDigits sign cs).map Int64.ofInt = .ok n ↔
      IsDigits cs ∧ n.toInt = sign * Nat.ofDigitChars 10 cs 0 := by
  have hread : (integerDigits sign cs).map Int64.ofInt = .ok n ↔
      integerDigits sign cs = .ok n.toInt := by
    cases h : integerDigits sign cs with
    | error e => exact ⟨nofun, nofun⟩
    | ok m =>
      have hm := ((integerDigits_eq_ok_iff hsign).1 h).2.1
      rw [Except.map, Except.ok.injEq, Except.ok.injEq]
      constructor
      · rintro rfl
        exact hm.toInt_ofInt.symm
      · rintro rfl
        exact n.ofInt_toInt
  rw [hread, integerDigits_eq_ok_iff hsign]
  exact ⟨fun ⟨hds, _, hn⟩ => ⟨hds, hn⟩, fun ⟨hds, hn⟩ => ⟨hds, inRange_toInt n, hn⟩⟩

/-! ### Reading numerals -/

theorem isNumeral_plus_iff {cs : Text} {n : Int} :
    IsNumeral ('+' :: cs) n ↔ IsDigits cs ∧ n = Nat.ofDigitChars 10 cs 0 := by
  constructor
  · intro h
    cases h with
    | unsigned hds => exact absurd (hds.isDigit '+' List.mem_cons_self) (by decide)
    | positive hds => exact ⟨hds, rfl⟩
  · rintro ⟨hds, rfl⟩
    exact .positive hds

theorem isNumeral_minus_iff {cs : Text} {n : Int} :
    IsNumeral ('-' :: cs) n ↔ IsDigits cs ∧ n = -(Nat.ofDigitChars 10 cs 0) := by
  constructor
  · intro h
    cases h with
    | unsigned hds => exact absurd (hds.isDigit '-' List.mem_cons_self) (by decide)
    | negative hds => exact ⟨hds, rfl⟩
  · rintro ⟨hds, rfl⟩
    exact .negative hds

theorem isNumeral_iff_of_no_sign {s : Text} (hplus : ∀ cs, s ≠ '+' :: cs)
    (hminus : ∀ cs, s ≠ '-' :: cs) {n : Int} :
    IsNumeral s n ↔ IsDigits s ∧ n = Nat.ofDigitChars 10 s 0 := by
  constructor
  · intro h
    cases h with
    | unsigned hds => exact ⟨hds, rfl⟩
    | positive => exact absurd rfl (hplus _)
    | negative => exact absurd rfl (hminus _)
  · rintro ⟨hds, rfl⟩
    exact .unsigned hds

/-- The texts that are read are the numerals of the integers in range, with those integers. -/
theorem integer?_eq_ok_iff {s : Text} {n : Int64} :
    integer? s = .ok n ↔ IsNumeral s n.toInt := by
  fun_cases integer? s with
  | case1 => exact ⟨nofun, fun h => absurd rfl h.ne_nil⟩
  | case2 cs =>
    rw [map_integerDigits_eq_ok_iff (.inl rfl), isNumeral_plus_iff, Int.one_mul]
  | case3 cs =>
    rw [map_integerDigits_eq_ok_iff (.inr rfl), isNumeral_minus_iff, Int.neg_one_mul]
  | case4 _ _ hplus hminus =>
    rw [map_integerDigits_eq_ok_iff (.inl rfl), isNumeral_iff_of_no_sign hplus hminus, Int.one_mul]

end Decimal

end PlainStory
