import PlainStory.Step.Definition

/-!
# Invocation of a step

Invoking a candidate aligns raw arguments, placeholder names and declared kinds by their positions.
The first raw argument that does not convert ends it before the handler is called; if all convert,
the handler is called once and its result is the outcome.
-/

namespace PlainStory

theorem HandlerResult.failure?_eq_none_iff {step : Text} {result : HandlerResult} :
    result.failure? step = none ↔ result = .ok := by
  cases result <;> simp [failure?]

namespace Candidate

variable {W : Type}

/-! ### Arguments by position -/

section Arguments

variable {c : Candidate W} {cs : Converters}

theorem argumentsFrom_cons_eq_ok_iff {i : Nat} {raw : Text} {raws : List Text}
    {args : List Argument} :
    c.argumentsFrom cs i (raw :: raws) = .ok args ↔
      ∃ value more, cs.convert raw (c.kindAt i) = .ok value ∧
        c.argumentsFrom cs (i + 1) raws = .ok more ∧ args = ⟨c.nameAt i, raw, value⟩ :: more := by
  rw [argumentsFrom]
  cases cs.convert raw (c.kindAt i) with
  | error e => simp
  | ok value =>
    cases c.argumentsFrom cs (i + 1) raws with
    | error e => simp [Except.map]
    | ok more => simp [Except.map, eq_comm]

theorem argumentsFrom_cons_eq_error_iff {i : Nat} {raw : Text} {raws : List Text}
    {e : InvalidParameter} :
    c.argumentsFrom cs i (raw :: raws) = .error e ↔
      cs.convert raw (c.kindAt i) = .error e ∨
        ∃ value, cs.convert raw (c.kindAt i) = .ok value ∧
          c.argumentsFrom cs (i + 1) raws = .error e := by
  rw [argumentsFrom]
  cases cs.convert raw (c.kindAt i) with
  | error e => simp
  | ok value => cases c.argumentsFrom cs (i + 1) raws <;> simp [Except.map]

/-- Each argument stands at the position of its raw text, with the name and kind declared there. -/
theorem of_argumentsFrom_eq_ok {i : Nat} {raws : List Text} {args : List Argument}
    (h : c.argumentsFrom cs i raws = .ok args) :
    args.length = raws.length ∧ ∀ k raw, raws[k]? = some raw →
      ∃ value, cs.convert raw (c.kindAt (i + k)) = .ok value ∧
        args[k]? = some ⟨c.nameAt (i + k), raw, value⟩ := by
  induction raws generalizing i args with
  | nil =>
    cases h
    exact ⟨rfl, fun k raw hk => by simp at hk⟩
  | cons first raws ih =>
    obtain ⟨value, more, hfirst, hmore, rfl⟩ := argumentsFrom_cons_eq_ok_iff.1 h
    obtain ⟨hlen, hat⟩ := ih hmore
    refine ⟨congrArg (· + 1) hlen, fun k raw hk => ?_⟩
    cases k with
    | zero =>
      obtain rfl : first = raw := Option.some.inj hk
      exact ⟨value, hfirst, rfl⟩
    | succ k =>
      rw [show i + (k + 1) = i + 1 + k by omega]
      exact hat k raw hk

/-- The error is that of the first raw argument which does not convert. -/
theorem of_argumentsFrom_eq_error {i : Nat} {raws : List Text} {e : InvalidParameter}
    (h : c.argumentsFrom cs i raws = .error e) :
    ∃ k raw, raws[k]? = some raw ∧ cs.convert raw (c.kindAt (i + k)) = .error e ∧
      ∀ j < k, ∀ r, raws[j]? = some r → ∃ value, cs.convert r (c.kindAt (i + j)) = .ok value := by
  induction raws generalizing i with
  | nil => cases h
  | cons first raws ih =>
    rcases argumentsFrom_cons_eq_error_iff.1 h with hfirst | ⟨value, hfirst, hmore⟩
    · exact ⟨0, first, rfl, hfirst, fun j hj => absurd hj j.not_lt_zero⟩
    · obtain ⟨k, raw, hk, he, hbefore⟩ := ih hmore
      have hshift : ∀ j, i + (j + 1) = i + 1 + j := fun j => by omega
      refine ⟨k + 1, raw, hk, by rwa [hshift], fun j hj r hr => ?_⟩
      cases j with
      | zero =>
        obtain rfl : first = r := Option.some.inj hr
        exact ⟨value, hfirst⟩
      | succ j =>
        rw [hshift]
        exact hbefore j (by omega) r hr

end Arguments

/-! ### Calls of the handler -/

/-- The candidate in a world that also keeps the contexts in which the handler has been called. -/
def recorded (c : Candidate W) : Candidate (W × List Context) where
  type := c.type
  pattern := c.pattern
  priority := c.priority
  kinds := c.kinds
  order := c.order
  handler world context :=
    let (result, w) := c.handler world.1 context
    (result, w, world.2 ++ [context])

theorem argumentsFrom_recorded (c : Candidate W) (cs : Converters) (i : Nat) (raws : List Text) :
    c.recorded.argumentsFrom cs i raws = c.argumentsFrom cs i raws := by
  induction raws generalizing i with
  | nil => rfl
  | cons raw raws ih =>
    rw [argumentsFrom, argumentsFrom, ih]
    rfl

theorem invoke_of_argumentsFrom_eq_error {c : Candidate W} {cs : Converters} {raws : List Text}
    {e : InvalidParameter} (h : c.argumentsFrom cs 0 raws = .error e) (step : Text)
    (row : Option Row) (w : W) :
    c.invoke cs step raws row w = (some (.invalidParameter e), w) := by
  rw [invoke, context?, h]
  rfl

theorem invoke_of_argumentsFrom_eq_ok {c : Candidate W} {cs : Converters} {raws : List Text}
    {args : List Argument} (h : c.argumentsFrom cs 0 raws = .ok args) (step : Text)
    (row : Option Row) (w : W) :
    c.invoke cs step raws row w = c.call ⟨step, args, row⟩ w := by
  rw [invoke, context?, h]
  rfl

theorem invoke_recorded_of_argumentsFrom_eq_error {c : Candidate W} {cs : Converters}
    {raws : List Text} {e : InvalidParameter} (h : c.argumentsFrom cs 0 raws = .error e)
    (step : Text) (row : Option Row) (w : W) (calls : List Context) :
    c.recorded.invoke cs step raws row (w, calls) = (some (.invalidParameter e), w, calls) :=
  invoke_of_argumentsFrom_eq_error ((c.argumentsFrom_recorded cs 0 raws).trans h) step row _

theorem invoke_recorded_of_argumentsFrom_eq_ok {c : Candidate W} {cs : Converters}
    {raws : List Text} {args : List Argument} (h : c.argumentsFrom cs 0 raws = .ok args)
    (step : Text) (row : Option Row) (w : W) (calls : List Context) :
    c.recorded.invoke cs step raws row (w, calls) =
      ((c.call ⟨step, args, row⟩ w).1, (c.call ⟨step, args, row⟩ w).2,
        calls ++ [⟨step, args, row⟩]) := by
  rw [invoke_of_argumentsFrom_eq_ok ((c.argumentsFrom_recorded cs 0 raws).trans h)]
  rfl

/-- Conversion is all or nothing. Where a raw argument does not convert, the outcome is the error of
the first such argument, the handler is not called and the world stays as it is. Otherwise the
handler is called once, with one argument for each raw argument at its position, and the step
succeeds exactly if the handler does. -/
theorem invoke_all_or_nothing (c : Candidate W) (cs : Converters) (step : Text) (raws : List Text)
    (row : Option Row) (w : W) :
    ((∃ (i : Nat) (raw : Text) (e : InvalidParameter),
        raws[i]? = some raw ∧ cs.convert raw (c.kindAt i) = .error e) →
      ∃ (i : Nat) (raw : Text) (e : InvalidParameter),
        raws[i]? = some raw ∧ cs.convert raw (c.kindAt i) = .error e ∧
        (∀ j < i, ∀ r, raws[j]? = some r → ∃ value, cs.convert r (c.kindAt j) = .ok value) ∧
        c.invoke cs step raws row w = (some (.invalidParameter e), w) ∧
        ∀ calls, c.recorded.invoke cs step raws row (w, calls) =
          (some (.invalidParameter e), w, calls)) ∧
    ((∀ (i : Nat) raw, raws[i]? = some raw → ∃ value, cs.convert raw (c.kindAt i) = .ok value) →
      ∃ args : List Argument, args.length = raws.length ∧
        (∀ (i : Nat) raw, raws[i]? = some raw → ∃ value,
          cs.convert raw (c.kinds[i]?.getD .text) = .ok value ∧
          args[i]? = some ⟨c.pattern.names[i]?.getD [], raw, value⟩) ∧
        ∀ result after, c.handler w ⟨step, args, row⟩ = (result, after) →
          (∀ calls, c.recorded.invoke cs step raws row (w, calls) =
            ((c.invoke cs step raws row w).1, after, calls ++ [⟨step, args, row⟩])) ∧
          (c.invoke cs step raws row w).2 = after ∧
          ((c.invoke cs step raws row w).1 = none ↔ result = .ok) ∧
          (∀ cause, result = .error cause →
            (c.invoke cs step raws row w).1 = some (.invocation step cause)) ∧
          ∀ payload, result = .panic payload → (c.invoke cs step raws row w).1 =
            some (.panic step (payload.getD "(Could not resolve panic payload)"))) := by
  cases h : c.argumentsFrom cs 0 raws with
  | error e =>
    obtain ⟨k, raw, hk, he, hbefore⟩ := of_argumentsFrom_eq_error h
    simp only [Nat.zero_add] at he hbefore
    refine ⟨fun _ => ?_, fun hall => ?_⟩
    · exact ⟨k, raw, e, hk, he, hbefore, invoke_of_argumentsFrom_eq_error h step row w,
        invoke_recorded_of_argumentsFrom_eq_error h step row w⟩
    · obtain ⟨value, hvalue⟩ := hall k raw hk
      simp [he] at hvalue
  | ok args =>
    obtain ⟨hlen, hat⟩ := of_argumentsFrom_eq_ok h
    simp only [Nat.zero_add] at hat
    refine ⟨fun ⟨i, raw, e, hi, he⟩ => ?_, fun _ => ⟨args, hlen, hat, ?_⟩⟩
    · obtain ⟨value, hvalue, -⟩ := hat i raw hi
      simp [he] at hvalue
    · intro result after hhandler
      have hcall : c.call ⟨step, args, row⟩ w = (result.failure? step, after) := by
        rw [call, hhandler]
      have hinvoke : c.invoke cs step raws row w = (result.failure? step, after) := by
        rw [invoke_of_argumentsFrom_eq_ok h, hcall]
      rw [hinvoke]
      refine ⟨fun calls => ?_, rfl, HandlerResult.failure?_eq_none_iff, ?_, ?_⟩
      · rw [invoke_recorded_of_argumentsFrom_eq_ok h, hcall]
      · rintro cause rfl
        rfl
      · rintro payload rfl
        rfl

/-- A step with one placeholder, whose handler panics after it has counted the call. -/
def alarming : Candidate Nat where
  type := .action
  pattern := ⟨"$count", '$', [.slot "count"]⟩
  priority := 0
  kinds := [.integer]
  order := 0
  handler w _ := (.panic none, w + 1)

/-- A second raw argument is a text without a name. It does not matter to a first one that fails. -/
theorem invoke_all_or_nothing_of_alarming :
    (alarming.invoke {} "When x" ["x", "y"] none 0).2 = 0 ∧
      alarming.invoke {} "When 12" ["12", "y"] none 0 =
        (some (.panic "When 12" "(Could not resolve panic payload)"), 1) := by
  constructor
  · obtain ⟨i, raw, e, -, -, -, hinvoke, -⟩ :=
      (invoke_all_or_nothing alarming {} "When x" ["x", "y"] none 0).1 ⟨0, "x", _, rfl, rfl⟩
    rw [hinvoke]
  · have hconvert : ∀ (i : Nat) raw, [("12" : Text), "y"][i]? = some raw →
        ∃ value, Converters.convert {} raw (alarming.kindAt i) = .ok value := by
      intro i raw hi
      match i with
      | 0 => exact ⟨.integer 12, Option.some.inj hi ▸ rfl⟩
      | 1 => exact ⟨.text "y", Option.some.inj hi ▸ rfl⟩
    obtain ⟨args, -, -, hall⟩ :=
      (invoke_all_or_nothing alarming {} "When 12" ["12", "y"] none 0).2 hconvert
    obtain ⟨-, hworld, -, -, hpanic⟩ := hall (.panic none) 1 rfl
    exact Prod.ext (hpanic none rfl) hworld

end Candidate

end PlainStory
