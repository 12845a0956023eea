import PlainStory.Proofs.Step.Lookup

/-!
# Idle handlers

What is left of definitions, hooks and registries when every handler succeeds without doing anything
and no argument has a kind. An idle registry is what the idle definitions build, it finds the same
candidates for the same steps, and the arguments of its candidates convert whatever they are.
-/

namespace PlainStory

variable {W : Type}

/-! ### Replacing handlers -/

/-- The definition with a handler that succeeds without doing anything, and without kinds. -/
def Definition.idle (d : Definition W) : Definition W :=
  { d with kinds := [], handler := fun w _ => (.ok, w) }

def Candidate.idle (c : Candidate W) : Candidate W :=
  { c with kinds := [], handler := fun w _ => (.ok, w) }

def Hook.idle (h : Hook W) : Hook W := { h with handler := fun w => (.ok, w) }

def Match.idle (m : Match W) : Match W := { m with candidate := m.candidate.idle }

def Registry.idle (r : Registry W) : Registry W :=
  { r with candidates := r.candidates.map Candidate.idle, hooks := r.hooks.map Hook.idle }

/-! ### Arguments -/

/-- No built-in converter is for texts, so a text is an argument as it stands. -/
theorem Converters.convert_text (separator raw : Text) :
    Converters.convert { separator := separator } raw .text = .ok (.text (Text.unixBreaks raw)) := rfl

theorem Candidate.exists_argumentsFrom_idle (c : Candidate W) (separator : Text) (i : Nat)
    (raws : List Text) :
    ∃ args, c.idle.argumentsFrom { separator := separator } i raws = .ok args := by
  induction raws generalizing i with
  | nil => exact ⟨[], rfl⟩
  | cons raw raws ih =>
    obtain ⟨args, hargs⟩ := ih (i + 1)
    have hkind : c.idle.kindAt i = .text := rfl
    rw [argumentsFrom, hkind, Converters.convert_text, hargs]
    exact ⟨_, rfl⟩

/-- The handler of an idle candidate is always reached. -/
theorem Candidate.exists_context?_idle (c : Candidate W) (separator step : Text)
    (raws : List Text) (row : Option Row) :
    ∃ context, c.idle.context? { separator := separator } step raws row = .ok context := by
  obtain ⟨args, hargs⟩ := c.exists_argumentsFrom_idle separator 0 raws
  rw [context?, hargs]
  exact ⟨_, rfl⟩

/-! ### Building -/

section Marking

variable {α β κ : Type} [BEq κ] [Hashable κ] (key : β → κ) (f : α → β)

theorem markRepeatedFrom_map (seen : Std.HashSet κ) (xs : List α) :
    markRepeatedFrom key seen (xs.map f) =
      (markRepeatedFrom (key ∘ f) seen xs).map (Prod.map f id) := by
  induction xs generalizing seen with
  | nil => rfl
  | cons x xs ih =>
    rw [List.map_cons, markRepeatedFrom, markRepeatedFrom, ih]
    rfl

end Marking

namespace Registry

theorem declared_idle (definitions : List (Definition W)) :
    declared (definitions.map Definition.idle) =
      (declared definitions).map (Prod.map Definition.idle id) := by
  unfold declared
  rw [List.flatMap_map, List.map_flatMap]
  congr 1
  funext d
  rw [List.map_map]
  rfl

theorem candidatesFrom_idle (mark : Char) (order : Nat)
    (vs : List ((Definition W × Text) × Bool)) :
    candidatesFrom mark order (vs.map (Prod.map (Prod.map Definition.idle id) id)) =
      (candidatesFrom mark order vs).map (List.map Candidate.idle) := by
  induction vs generalizing order with
  | nil => rfl
  | cons v vs ih =>
    obtain ⟨⟨d, text⟩, repeated⟩ := v
    simp only [List.map_cons, Prod.map_apply, id_eq, candidatesFrom]
    cases repeated with
    | true => rfl
    | false =>
      cases Pattern.ofText? mark text with
      | error e => rfl
      | ok pattern =>
        rw [ih]
        cases candidatesFrom mark (order + 1) vs <;> rfl

/-- The idle definitions and hooks build the idle registry, or fail for the same reason. -/
theorem build?_idle (keywords : Keywords) (mark : Char) (definitions : List (Definition W))
    (hooks : List (Hook W)) :
    build? keywords mark (definitions.map Definition.idle) (hooks.map Hook.idle) =
      (build? keywords mark definitions hooks).map Registry.idle := by
  have hkey : identity ∘ Prod.map Definition.idle id = (identity : Definition W × Text → _) := rfl
  unfold build?
  rw [declared_idle, markRepeated, markRepeatedFrom_map, hkey, candidatesFrom_idle, markRepeated]
  cases candidatesFrom mark 0 (markRepeatedFrom identity ∅ (declared definitions)) <;> rfl

end Registry

/-! ### Lookup -/

namespace Registry

theorem matchesOf_idle (r : Registry W) (step : Text) :
    r.idle.matchesOf step = (r.matchesOf step).map Match.idle := by
  simp only [matchesOf, idle, List.filterMap_map, List.map_filterMap]
  congr 1
  funext c
  rw [Option.map_map]
  rfl

theorem matchesAcross_idle (step : Text) (index : Nat) (rs : List (Registry W)) :
    matchesAcross step index (rs.map idle) =
      (matchesAcross step index rs).map (Prod.map id Match.idle) := by
  induction rs generalizing index with
  | nil => rfl
  | cons r rs ih =>
    rw [List.map_cons, matchesAcross, matchesAcross, ih, matchesOf_idle, List.map_append,
      List.map_map, List.map_map]
    rfl

/-- Idle registries find the same candidates with the same values. -/
theorem findAcross?_idle (rs : List (Registry W)) (step : Text) :
    findAcross? (rs.map idle) step = (findAcross? rs step).map Match.idle := by
  -- neither priority nor place changes
  have hbetter : ∀ m n : Nat × Match W, Match.betterAcross (Prod.map id Match.idle m)
      (Prod.map id Match.idle n) = Match.betterAcross m n := fun _ _ => rfl
  rw [findAcross?, matchesAcross_idle, best_map hbetter, findAcross?, Option.map_map, Option.map_map]
  rfl

theorem hooksAt_idle (r : Registry W) (place : HookPlace) :
    r.idle.hooksAt place = (r.hooksAt place).map Hook.idle := List.filter_map

theorem hooksAfterScenario_idle (r : Registry W) :
    r.idle.hooksAfterScenario = r.hooksAfterScenario.map Hook.idle := List.filter_map

end Registry

end PlainStory
