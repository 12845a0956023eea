import Mathlib.Logic.Function.Basic
import PlainStory.Run.Event

/-!
# The scenarios of a stream

Where a scenario asks for stories, theirs stand within it. A stream of events has its scenarios well
nested if each of them that is opened is closed again, the inner ones first. Such a stream is the
text of exactly one `Outline`, the tree of its scenarios, and what belongs to a scenario is read off
that tree: the events in it that stand in no scenario further inside.
-/

namespace PlainStory

/-! ### Nested scenarios -/

/-- Whether an event opens or closes a scenario. -/
def Event.isScenarioBound : Event → Bool
  | beforeScenario _ | afterScenario => true
  | _ => false

/-- An event opens a scenario, closes one, or does neither. -/
theorem Event.bound_cases (e : Event) :
    (∃ title, e = .beforeScenario title) ∨ e = .afterScenario ∨ e.isScenarioBound = false := by
  cases e with
  | beforeScenario title => exact .inl ⟨title, rfl⟩
  | afterScenario => exact .inr (.inl rfl)
  | _ => exact .inr (.inr rfl)

/-- The number of scenarios that are open after an event, if it can stand there. -/
def Event.openScenarios : Nat → Event → Option Nat
  | depth, beforeScenario _ => some (depth + 1)
  | 0, afterScenario => none
  | depth + 1, afterScenario => some depth
  | depth, _ => some depth

theorem Event.openScenarios_of_not_bound {e : Event} (he : e.isScenarioBound = false) (depth : Nat) :
    Event.openScenarios depth e = some depth := by
  cases e with
  | beforeScenario title => exact absurd he nofun
  | afterScenario => exact absurd he nofun
  | _ => cases depth <;> rfl

/-- Every scenario that is opened is closed again, and none is closed that is not open. -/
def ScenariosNested (es : List Event) : Prop := es.foldlM Event.openScenarios 0 = some 0

instance (es : List Event) : Decidable (ScenariosNested es) :=
  inferInstanceAs (Decidable (es.foldlM Event.openScenarios 0 = some 0))

/-! ### Outlines -/

/-- A stream as the tree of its scenarios: it is over, or it goes on behind an event that bounds no
scenario, or behind a scenario with all that is in it. -/
inductive Outline where
  | nil
  | event (e : Event) (outside : e.isScenarioBound = false) (rest : Outline)
  | scenario (title : Text) (inside rest : Outline)

namespace Outline

/-- The stream that an outline is of. -/
def events : Outline → List Event
  | nil => []
  | event e _ rest => e :: rest.events
  | scenario title inside rest =>
    .beforeScenario title :: (inside.events ++ .afterScenario :: rest.events)

/-- The events that stand in none of the scenarios. -/
def own : Outline → List Event
  | nil => []
  | event e _ rest => e :: rest.own
  | scenario _ _ rest => rest.own

/-- What is in each of the scenarios, at every depth, in the order in which they are closed. -/
def scenarios : Outline → List Outline
  | nil => []
  | event _ _ rest => rest.scenarios
  | scenario _ inside rest => inside.scenarios ++ inside :: rest.scenarios

/-- There is one of them for each end of a scenario. -/
theorem length_scenarios (o : Outline) : o.scenarios.length = o.events.count .afterScenario := by
  induction o with
  | nil => rfl
  | event e outside rest ih =>
    have he : e ≠ .afterScenario := by
      rintro rfl
      exact absurd outside nofun
    rw [scenarios, events, List.count_cons_of_ne he, ih]
  | scenario title inside rest ihInside ihRest =>
    have hopen : Event.beforeScenario title ≠ .afterScenario := nofun
    rw [scenarios, events, List.length_append, List.length_cons, List.count_cons_of_ne hopen,
      List.count_append, List.count_cons_self, ihInside, ihRest]

/-- One outline behind another. -/
def append : Outline → Outline → Outline
  | nil, o => o
  | event e outside rest, o => event e outside (rest.append o)
  | scenario title inside rest, o => scenario title inside (rest.append o)

@[simp] theorem events_append (o o' : Outline) : (o.append o').events = o.events ++ o'.events := by
  induction o with
  | nil => rfl
  | event e outside rest ih => rw [append, events, events, ih, List.cons_append]
  | scenario title inside rest _ ih =>
    rw [append, events, events, ih, List.cons_append, List.append_assoc, List.cons_append]

@[simp] theorem own_append (o o' : Outline) : (o.append o').own = o.own ++ o'.own := by
  induction o with
  | nil => rfl
  | event e outside rest ih => rw [append, own, own, ih, List.cons_append]
  | scenario title inside rest _ ih => exact ih

@[simp] theorem scenarios_append (o o' : Outline) :
    (o.append o').scenarios = o.scenarios ++ o'.scenarios := by
  induction o with
  | nil => rfl
  | event e outside rest ih => exact ih
  | scenario title inside rest _ ih =>
    rw [append, scenarios, scenarios, ih, List.append_assoc, List.cons_append]

theorem append_nil (o : Outline) : o.append nil = o := by
  induction o with
  | nil => rfl
  | event e outside rest ih => rw [append, ih]
  | scenario title inside rest _ ih => rw [append, ih]

theorem scenariosNested (o : Outline) : ScenariosNested o.events := by
  -- as many scenarios are open behind an outline as before it
  have hdepth : ∀ depth es, (o.events ++ es).foldlM Event.openScenarios depth =
      es.foldlM Event.openScenarios depth := by
    induction o with
    | nil => exact fun _ _ => rfl
    | event e outside rest ih =>
      intro depth es
      rw [events, List.cons_append, List.foldlM_cons, Event.openScenarios_of_not_bound outside]
      exact ih depth es
    | scenario title inside rest ihInside ihRest =>
      intro depth es
      rw [events, List.cons_append, List.append_assoc, List.cons_append, List.foldlM_cons]
      exact (ihInside (depth + 1) _).trans (ihRest depth es)
  have h := hdepth 0 []
  rwa [List.append_nil] at h

/-! ### The outline of a stream

A stream is read from its end. What is behind the end of a scenario waits until the scenario has been
read to its beginning. -/

/-- The outlines that are read: the one that is being read, and those that wait for scenarios to
begin, the innermost first. -/
structure Reading where
  current : Outline := nil
  waiting : List Outline := []

/-- Reads the event before what has been read. -/
def read : Event → Reading → Reading
  | .afterScenario, ⟨o, waiting⟩ => ⟨nil, o :: waiting⟩
  | .beforeScenario title, ⟨o, rest :: waiting⟩ => ⟨scenario title o rest, waiting⟩
  | .beforeScenario _, ⟨o, []⟩ => ⟨o, []⟩
  | e, ⟨o, waiting⟩ =>
    if he : e.isScenarioBound = false then ⟨event e he o, waiting⟩ else ⟨o, waiting⟩

/-- The outline of a stream. -/
def ofEvents (es : List Event) : Outline := (es.foldr read {}).current

theorem read_of_not_bound {e : Event} (he : e.isScenarioBound = false) (s : Reading) :
    read e s = ⟨event e he s.current, s.waiting⟩ := by
  cases e with
  | beforeScenario title => exact absurd he nofun
  | afterScenario => exact absurd he nofun
  | _ => rfl

/-- A stream that closes so many scenarios more than it opens is what is read of it, with the end of
a scenario before each outline that waits. -/
theorem of_foldlM {depth : Nat} {es : List Event}
    (h : es.foldlM Event.openScenarios depth = some 0) :
    (es.foldr read {}).waiting.length = depth ∧
      es = (es.foldr read {}).current.events ++
        (es.foldr read {}).waiting.flatMap fun o => .afterScenario :: o.events := by
  induction es generalizing depth with
  | nil =>
    obtain rfl : depth = 0 := Option.some.inj h
    exact ⟨rfl, rfl⟩
  | cons e es ih =>
    rw [List.foldlM_cons] at h
    rw [List.foldr_cons]
    obtain ⟨title, rfl⟩ | rfl | he := e.bound_cases
    · obtain ⟨hlength, hes⟩ := ih h
      generalize es.foldr read {} = s at hlength hes ⊢
      obtain ⟨o, waiting⟩ := s
      cases waiting with
      | nil => exact absurd hlength nofun
      | cons rest waiting =>
        subst hes
        exact ⟨Nat.succ.inj hlength, by simp [read, events]⟩
    · cases depth with
      | zero => exact absurd h nofun
      | succ depth =>
        obtain ⟨hlength, hes⟩ := ih h
        exact ⟨congrArg Nat.succ hlength, congrArg (Event.afterScenario :: ·) hes⟩
    · rw [Event.openScenarios_of_not_bound he] at h
      obtain ⟨hlength, hes⟩ := ih h
      rw [read_of_not_bound he]
      exact ⟨hlength, congrArg (e :: ·) hes⟩

/-- A stream with nested scenarios has an outline. -/
theorem events_ofEvents {es : List Event} (h : ScenariosNested es) : (ofEvents es).events = es := by
  obtain ⟨hlength, hes⟩ := of_foldlM h
  rw [List.length_eq_zero_iff.1 hlength, List.flatMap_nil, List.append_nil] at hes
  exact hes.symm

theorem foldr_read_events (o : Outline) (s : Reading) :
    o.events.foldr read s = ⟨o.append s.current, s.waiting⟩ := by
  induction o generalizing s with
  | nil => rfl
  | event e outside rest ih => rw [events, List.foldr_cons, ih, read_of_not_bound outside, append]
  | scenario title inside rest ihInside ihRest =>
    rw [events, List.foldr_cons, List.foldr_append, List.foldr_cons, ihRest, read, ihInside,
      append_nil, read, append]

/-- It has no other one. -/
theorem ofEvents_events (o : Outline) : ofEvents o.events = o := by
  rw [ofEvents, foldr_read_events, append_nil]

theorem events_injective : Function.Injective events :=
  Function.LeftInverse.injective ofEvents_events

/-- A stream without scenarios has all its events outside of them. -/
theorem exists_flat {es : List Event} (h : ∀ e ∈ es, e.isScenarioBound = false) :
    ∃ o : Outline, o.events = es ∧ o.own = es ∧ o.scenarios = [] := by
  induction es with
  | nil => exact ⟨nil, rfl, rfl, rfl⟩
  | cons e es ih =>
    rw [List.forall_mem_cons] at h
    obtain ⟨o, hevents, hown, hscenarios⟩ := ih h.2
    exact ⟨event e h.1 o, congrArg (e :: ·) hevents, congrArg (e :: ·) hown, hscenarios⟩

/-- What stands behind a nested stream and is in no scenario stands outside of them. -/
theorem own_of_events {o before : Outline} {es : List Event} (h : o.events = before.events ++ es)
    (hes : ∀ e ∈ es, e.isScenarioBound = false) : o.own = before.own ++ es := by
  obtain ⟨flat, rfl, hown, -⟩ := exists_flat hes
  obtain rfl : o = before.append flat := events_injective (h.trans (before.events_append flat).symm)
  rw [own_append, hown]

end Outline

end PlainStory
