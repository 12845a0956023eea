import PlainStory.Keyword.StartingWord
import PlainStory.Repetition
import PlainStory.Step.Definition
import PlainStory.Step.Hook

/-!
# Registries

A registry holds the candidates of its definitions, and its hooks. No two candidates of one type have
the same pattern. Among the candidates that match a step the one of highest priority is chosen, and
the earliest of those; across several registries an earlier registry comes first.
-/

namespace PlainStory

/-- Why declarations do not make a registry. -/
inductive RegistryError where
  | duplicate (type : StepType) (pattern : Text)
  | invalid (e : InvalidPattern)
deriving DecidableEq

def RegistryError.message : RegistryError → Text
  | duplicate type pattern => "Duplicate `" ++ type.name ++ " " ++ pattern ++ "` step definition"
  | invalid e => e.message

structure Registry (W : Type) where
  /-- The keywords whose starting words are no part of what a step says. -/
  keywords : Keywords
  candidates : List (Candidate W)
  hooks : List (Hook W)

/-- A candidate that matches a step, with the values of its placeholders. -/
structure Match (W : Type) where
  candidate : Candidate W
  values : List Text

/-- The first of the best elements of a list, where `better` compares two of them. -/
def best {α : Type} (better : α → α → Bool) (xs : List α) : Option α :=
  xs.foldl (fun current x => if current.all (better x ·) then some x else current) none

@[simp] theorem best_nil {α : Type} (better : α → α → Bool) : best better [] = none := rfl

theorem best_concat {α : Type} (better : α → α → Bool) (xs : List α) (x : α) :
    best better (xs ++ [x]) =
      if (best better xs).all (better x ·) then some x else best better xs := by
  unfold best
  rw [List.foldl_append]
  rfl

namespace Match

variable {W : Type}

/-- Whether a match has higher priority, or the same and an earlier candidate. -/
def better (m n : Match W) : Bool :=
  n.candidate.priority < m.candidate.priority ||
    (n.candidate.priority = m.candidate.priority && m.candidate.order < n.candidate.order)

/-- Whether a match has higher priority, or the same and an earlier registry, or also the same
registry and an earlier candidate. The numbers are those of the registries. -/
def betterAcross (m n : Nat × Match W) : Bool :=
  n.2.candidate.priority < m.2.candidate.priority ||
    (n.2.candidate.priority = m.2.candidate.priority &&
      (m.1 < n.1 || (m.1 = n.1 && m.2.candidate.order < n.2.candidate.order)))

end Match

namespace Registry

variable {W : Type}

/-! ### Building -/

/-- All variants of all definitions in their order. -/
def declared (definitions : List (Definition W)) : List (Definition W × Text) :=
  definitions.flatMap fun d => d.variants.map fun pattern => (d, pattern)

/-- What candidates of a registry differ in. -/
def identity (v : Definition W × Text) : StepType × Text := (v.1.type, v.2)

/-- The candidates of variants, each given with whether it repeats an earlier one. The places of the
candidates count from `order`. -/
def candidatesFrom (mark : Char) (order : Nat) :
    List ((Definition W × Text) × Bool) → Except RegistryError (List (Candidate W))
  | [] => .ok []
  | ((d, text), repeated) :: vs =>
    if repeated then .error (.duplicate d.type text)
    else
      match Pattern.ofText? mark text with
      | .error e => .error (.invalid e)
      | .ok pattern =>
        (candidatesFrom mark (order + 1) vs).map
          (⟨d.type, pattern, d.priority, d.kinds, order, d.handler⟩ :: ·)

/-- The registry of the given definitions and hooks. -/
def build? (keywords : Keywords) (mark : Char) (definitions : List (Definition W))
    (hooks : List (Hook W)) : Except RegistryError (Registry W) :=
  (candidatesFrom mark 0 (markRepeated identity (declared definitions))).map fun candidates =>
    ⟨keywords, candidates, hooks⟩

/-! ### Lookup -/

/-- All matches of a step in the order of the candidates. -/
def matchesOf (r : Registry W) (step : Text) : List (Match W) :=
  let said := r.keywords.withoutStartingWord step
  r.candidates.filterMap fun c => (c.pattern.values? said).map fun values => ⟨c, values⟩

def find? (r : Registry W) (step : Text) : Option (Match W) :=
  best Match.better (r.matchesOf step)

/-- All matches of a step with the numbers of their registries, which count from `index`. -/
def matchesAcross (step : Text) : Nat → List (Registry W) → List (Nat × Match W)
  | _, [] => []
  | index, r :: rs =>
    (r.matchesOf step).map (fun m => (index, m)) ++ matchesAcross step (index + 1) rs

def findAcross? (rs : List (Registry W)) (step : Text) : Option (Match W) :=
  (best Match.betterAcross (matchesAcross step 0 rs)).map Prod.snd

/-- The hooks at the given place. -/
def hooksAt (r : Registry W) (place : HookPlace) : List (Hook W) :=
  r.hooks.filter fun h => h.place = place

def hooksAfterScenario (r : Registry W) : List (Hook W) :=
  r.hooks.filter fun h => h.place.isAfterScenario

end Registry

end PlainStory
