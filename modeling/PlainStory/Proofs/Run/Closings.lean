import PlainStory.Run.Runner

/-!
# The scenarios that a run closes

Which scenarios a run closes, in which order, and which of them a given story ends early depends on
the story and the library alone: no handler and no outcome changes it. `Runner.closings` follows the
scenarios of a story, and within each of them the stories that it asks for, up to the first one that
is refused. The main statement is that what ends a scenario early ends the whole early, and the other
way round.
-/

namespace PlainStory

variable {W : Type}

/-- A scenario that is closed: the paths of the stories that are open around it, and the error of the
given story that ended it early, if one did. -/
structure Closing where
  opened : List Text
  scenario : Scenario
  aborted : Option RunError

/-- The scenarios that a part of a run closes, in this order, and the error of the given story that
ended the part early, if one did. -/
structure Closings where
  closed : List Closing := []
  aborted : Option RunError := none

namespace Closings

/-! ### What is closed one after another -/

/-- What one part closes and, unless that is ended early, the next. -/
def andThen (c d : Closings) : Closings :=
  match c.aborted with
  | some _ => c
  | none => ⟨c.closed ++ d.closed, d.aborted⟩

def inOrder (parts : List Closings) : Closings := parts.foldr andThen {}

/-- A scenario around what is closed in it. It is closed last, and ended early if that is. -/
def around (opened : List Text) (s : Scenario) (inside : Closings) : Closings :=
  ⟨inside.closed ++ [⟨opened, s, inside.aborted⟩], inside.aborted⟩

section

variable (given : Text → Closings) (opened : List Text)

/-- A scenario, where `given` is what the given story at a path closes. -/
def ofScenario (s : Scenario) : Closings := around opened s (inOrder (s.givenStories.map given))

def ofScenarios (ss : List Scenario) : Closings := inOrder (ss.map (ofScenario given opened))

end

variable {c d : Closings}

theorem andThen_of_some {e : RunError} (h : c.aborted = some e) : c.andThen d = c := by
  unfold andThen
  rw [h]

theorem andThen_of_none (h : c.aborted = none) :
    c.andThen d = ⟨c.closed ++ d.closed, d.aborted⟩ := by
  unfold andThen
  rw [h]

/-! ### What ends a scenario early -/

/-- What is closed was ended early by nothing but what ended the whole, and that is no step. -/
structure Coherent (c : Closings) : Prop where
  cause : ∀ x ∈ c.closed, ∀ e, x.aborted = some e → c.aborted = some e
  ne_step : ∀ f, c.aborted ≠ some (.step f)

theorem coherent_of_nil {aborted : Option RunError} (h : ∀ f, aborted ≠ some (.step f)) :
    Coherent ⟨[], aborted⟩ := ⟨List.forall_mem_nil _, h⟩

theorem Coherent.andThen (hc : c.Coherent) (hd : d.Coherent) : (c.andThen d).Coherent := by
  cases haborted : c.aborted with
  | some e =>
    rw [andThen_of_some haborted]
    exact hc
  | none =>
    rw [andThen_of_none haborted]
    refine ⟨List.forall_mem_append.2 ⟨fun x hx e he => ?_, hd.cause⟩, hd.ne_step⟩
    have hnone := hc.cause x hx e he
    rw [haborted] at hnone
    cases hnone

theorem coherent_inOrder {parts : List Closings} (h : ∀ c ∈ parts, c.Coherent) :
    (inOrder parts).Coherent := by
  induction parts with
  | nil => exact coherent_of_nil fun f => (Option.some_ne_none (RunError.step f)).symm
  | cons c parts ih =>
    obtain ⟨hc, hparts⟩ := List.forall_mem_cons.1 h
    exact hc.andThen (ih hparts)

theorem Coherent.around (hc : c.Coherent) (opened : List Text) (s : Scenario) :
    (around opened s c).Coherent :=
  ⟨List.forall_mem_append.2 ⟨hc.cause, List.forall_mem_singleton.2 fun _ he => he⟩, hc.ne_step⟩

variable {given : Text → Closings} {opened : List Text}

theorem coherent_ofScenarios (hgiven : ∀ path, (given path).Coherent) (ss : List Scenario) :
    (ofScenarios given opened ss).Coherent := by
  refine coherent_inOrder fun c hc => ?_
  obtain ⟨s, -, rfl⟩ := List.mem_map.1 hc
  refine (coherent_inOrder fun d hd => ?_).around opened s
  obtain ⟨path, -, rfl⟩ := List.mem_map.1 hd
  exact hgiven path

/-- Where scenarios are ended early, one of them was. -/
theorem exists_of_aborted_ofScenarios {ss : List Scenario} {e : RunError}
    (h : (ofScenarios given opened ss).aborted = some e) :
    ∃ x ∈ (ofScenarios given opened ss).closed, x.aborted = some e := by
  induction ss with
  | nil => cases h
  | cons s ss ih =>
    have hcons : ofScenarios given opened (s :: ss) =
        (ofScenario given opened s).andThen (ofScenarios given opened ss) := rfl
    rw [hcons] at h ⊢
    cases haborted : (ofScenario given opened s).aborted with
    | some e' =>
      rw [andThen_of_some haborted] at h ⊢
      exact ⟨_, List.mem_append_right _ (List.mem_singleton_self _), h⟩
    | none =>
      rw [andThen_of_none haborted] at h ⊢
      obtain ⟨x, hx, he⟩ := ih h
      exact ⟨x, List.mem_append_right _ hx, he⟩

end Closings

namespace Runner

variable (r : Runner W)

/-! ### What a story closes -/

/-- What the given story at a path closes while stories with the paths `opened` are open: nothing if
it is refused. -/
def closingsAt (opened : List Text) (path : Text) : Closings :=
  if _ho : path ∈ opened then { aborted := some (.recursive path) }
  else
    match _hl : r.settings.library.get? path with
    | none => { aborted := some (.load (.notFound path)) }
    | some text =>
      .ofScenarios (fun q => closingsAt (path :: opened) q) (path :: opened)
        (r.read path text).scenarios
termination_by r.settings.library.paths.countP (· ∉ opened)
decreasing_by exact countP_notOpen_lt (Library.mem_paths_of_get? _hl) _ho

/-- What scenarios close while stories with the paths `opened` are open. -/
def closings (opened : List Text) (ss : List Scenario) : Closings :=
  .ofScenarios (r.closingsAt opened) opened ss

theorem closingsAt_of_mem {opened : List Text} {path : Text} (ho : path ∈ opened) :
    r.closingsAt opened path = { aborted := some (.recursive path) } := by
  rw [closingsAt, dif_pos ho]

theorem closingsAt_of_missing {opened : List Text} {path : Text} (ho : path ∉ opened)
    (hl : r.settings.library.get? path = none) :
    r.closingsAt opened path = { aborted := some (.load (.notFound path)) } := by
  rw [closingsAt, dif_neg ho]
  split
  · rfl
  · next text hsome => rw [hl] at hsome; cases hsome

theorem closingsAt_of_found {opened : List Text} {path text : Text} (ho : path ∉ opened)
    (hl : r.settings.library.get? path = some text) :
    r.closingsAt opened path = r.closings (path :: opened) (r.read path text).scenarios := by
  rw [closingsAt, dif_neg ho]
  split
  · next hnone => rw [hl] at hnone; cases hnone
  · next text' hsome =>
    rw [hl] at hsome
    rw [Option.some.inj hsome]
    rfl

theorem coherent_closingsAt (opened : List Text) (path : Text) :
    (r.closingsAt opened path).Coherent := by
  by_cases ho : path ∈ opened
  · rw [r.closingsAt_of_mem ho]
    exact Closings.coherent_of_nil fun _ h => by cases h
  · cases hl : r.settings.library.get? path with
    | none =>
      rw [r.closingsAt_of_missing ho hl]
      exact Closings.coherent_of_nil fun _ h => by cases h
    | some text =>
      rw [r.closingsAt_of_found ho hl]
      exact Closings.coherent_ofScenarios (fun q => coherent_closingsAt (path :: opened) q) _
termination_by r.settings.library.paths.countP (· ∉ opened)
decreasing_by exact countP_notOpen_lt (Library.mem_paths_of_get? hl) ho

/-- What ends one of the scenarios early ends the whole early, and the other way round. -/
theorem exists_aborted_iff (opened : List Text) (ss : List Scenario) (e : RunError) :
    (∃ x ∈ (r.closings opened ss).closed, x.aborted = some e) ↔
      (r.closings opened ss).aborted = some e := by
  constructor
  · rintro ⟨x, hx, he⟩
    exact (Closings.coherent_ofScenarios (r.coherent_closingsAt opened) ss).cause x hx e he
  · exact Closings.exists_of_aborted_ofScenarios

/-- It is a given story, and not a step. -/
theorem aborted_closings_ne_step (opened : List Text) (ss : List Scenario) (f : StepError) :
    (r.closings opened ss).aborted ≠ some (.step f) :=
  (Closings.coherent_ofScenarios (r.coherent_closingsAt opened) ss).ne_step f

end Runner

end PlainStory
