import PlainStory.Proofs.Run.Parts
import PlainStory.Run.Sequence

/-!
# Turns and sequences

`Item.result` is what comes of an item when it is its turn, and `Item.turn_eq` says that a turn is the
calls and the outcome of that result, and nothing else. `Item.CanHave` lists the outcomes that each
kind of item can have.
-/

namespace PlainStory

variable {W : Type}

/-! ### Entries -/

/-- Whether an entry says that a handler was called. -/
def Entry.isCall : Entry W → Bool
  | hookCalled _ | stepCalled _ _ => true
  | reported _ | requested _ | consulted _ _ => false

/-- Whether an entry is one that sequences leave: a call or an outcome. -/
def Entry.isOfSequence : Entry W → Bool
  | reported (.outcome _) | hookCalled _ | stepCalled _ _ => true
  | reported _ | requested _ | consulted _ _ => false

theorem Entry.isOfSequence_of_isCall {x : Entry W} (h : x.isCall = true) :
    x.isOfSequence = true := by
  cases x <;> first | rfl | exact absurd h nofun

/-- Calling handlers reports nothing. -/
theorem eventsOf_eq_nil_of_isCall {j : List (Entry W)} (h : ∀ x ∈ j, x.isCall = true) :
    eventsOf j = [] := by
  refine List.filterMap_eq_nil_iff.2 fun x hx => ?_
  cases x with
  | reported e => exact absurd (h _ hx) nofun
  | hookCalled _ => rfl
  | stepCalled _ _ => rfl
  | requested _ => rfl
  | consulted _ _ => rfl

/-! ### Turns -/

namespace Item

variable (s : Settings) (row : Option Row) (i : Item W)

/-- What comes of an item in its turn: the handlers called, the outcome if there is one, and the
world. -/
def result (p : Progress W) : List (Entry W) × Option StepOutcome × W :=
  if i.admits p.state.fine then
    if i.isCarriedOut p.state.fine then i.perform s row p.world
    else ([], some i.outcomeSkipped, p.world)
  else ([], none, p.world)

/-- A turn is what comes of the item: the calls, then the report of the outcome, which the state
takes into account. -/
theorem turn_eq (p : Progress W) :
    i.turn s row p =
      ⟨(i.result s row p).1 ++ (i.result s row p).2.1.toList.map fun o => .reported (.outcome o),
        ⟨(i.result s row p).2.2, (i.result s row p).2.1.elim p.state p.state.note⟩, none⟩ := by
  unfold turn
  by_cases ha : i.admits p.state.fine
  · have hr : i.result s row p =
        if i.isCarriedOut p.state.fine then i.perform s row p.world
        else ([], some i.outcomeSkipped, p.world) := if_pos ha
    rw [if_pos ha, ← hr]
    obtain ⟨calls, _ | o, w⟩ := i.result s row p <;> simp
  · have hr : i.result s row p = ([], none, p.world) := if_neg ha
    rw [if_neg ha, hr]
    rfl

/-- The outcomes that an item can have. A hook has one only if it fails, a step always. -/
inductive CanHave : Item W → Option StepOutcome → Prop where
  | silent (h : Hook W) : CanHave (.hook h) none
  | hookFailed (h : Hook W) (f : Failure) : CanHave (.hook h) (some (.failed h.label (.failed f)))
  | successful (step : Text) (m : Match W) : CanHave (.matched step m) (some (.successful step))
  | failed (step : Text) (m : Match W) (f : Failure) :
    CanHave (.matched step m) (some (.failed step (.failed f)))
  | notPerformed (step : Text) (m : Match W) :
    CanHave (.matched step m) (some (.notPerformed step))
  | pending (step : Text) : CanHave (.pending step) (some (.pending step))
  | pendingNotPerformed (step : Text) : CanHave (.pending step) (some (.notPerformed step))
  | comment (step : Text) : CanHave (.comment step) (some (.comment step))

theorem canHave_outcomeOfHook (h : Hook W) (failure : Option Failure) :
    CanHave (.hook h) (outcomeOfHook h.label failure) := by
  cases failure with
  | none => exact .silent h
  | some f => exact .hookFailed h f

theorem canHave_outcomeOfStep (step : Text) (m : Match W) (failure : Option Failure) :
    CanHave (.matched step m) (some (outcomeOfStep step failure)) := by
  cases failure with
  | none => exact .successful step m
  | some f => exact .failed step m f

theorem canHave_perform (w : W) : i.CanHave (i.perform s row w).2.1 := by
  cases i with
  | hook h =>
    rw [perform]
    split
    · exact .silent h
    · exact canHave_outcomeOfHook h _
  | matched step m =>
    rw [perform]
    split
    · exact .successful step m
    · split
      · exact canHave_outcomeOfStep step m _
      · exact canHave_outcomeOfStep step m _
  | pending step => exact .pending step
  | comment step => exact .comment step

theorem canHave_result (p : Progress W) : i.CanHave (i.result s row p).2.1 := by
  unfold result
  split
  · split
    · exact canHave_perform s row i p.world
    · next hc =>
      cases i with
      | hook h => exact absurd rfl hc
      | matched step m => exact .notPerformed step m
      | pending step => exact .pendingNotPerformed step
      | comment step => exact .comment step
  · next ha =>
    cases i with
    | hook h => exact .silent h
    | matched step m => exact absurd rfl ha
    | pending step => exact absurd rfl ha
    | comment step => exact absurd rfl ha

theorem isCall_of_mem_perform (w : W) : ∀ x ∈ (i.perform s row w).1, x.isCall = true := by
  cases i with
  | hook h =>
    rw [perform]
    split <;> simp [Entry.isCall]
  | matched step m =>
    rw [perform]
    split
    · simp
    · split <;> simp [Entry.isCall]
  | pending step => exact nofun
  | comment step => exact nofun

theorem isCall_of_mem_result (p : Progress W) :
    ∀ x ∈ (i.result s row p).1, x.isCall = true := by
  unfold result
  split
  · split
    · exact isCall_of_mem_perform s row i p.world
    · exact nofun
  · exact nofun

/-- The only event of a turn is the outcome of its item. -/
theorem events_turn (p : Progress W) :
    (i.turn s row p).events = (i.result s row p).2.1.toList.map .outcome := by
  rw [turn_eq, Trace.events_eq, eventsOf_append,
    eventsOf_eq_nil_of_isCall (isCall_of_mem_result s row i p), List.nil_append, eventsOf_outcome]

theorem fatal_turn (p : Progress W) : (i.turn s row p).fatal = none := by rw [turn_eq]

/-! ### Sequences -/

variable {s row}

theorem says_turn_andThen {b : Play W} {G : Option RunError → List (Entry W) → Prop}
    (h : ∀ calls o, i.CanHave o → (∀ x ∈ calls, x.isCall = true) →
      b.Says fun f j => G f (calls ++ o.toList.map (fun o => .reported (.outcome o)) ++ j)) :
    ((i.turn s row).andThen b).Says G := by
  intro p
  rw [Play.andThen_of_none (fatal_turn s row i p), turn_eq]
  exact h _ _ (canHave_result s row i p) (isCall_of_mem_result s row i p) _

/-- The items of a sequence have their turns one after another, from a fine state. -/
theorem says_sequence {items : List (Item W)} {G : Option RunError → List (Entry W) → Prop}
    (h : (Play.inOrder (items.map (turn s row))).Says G) : (sequence s row items).Says G :=
  fun _ => h _

theorem says_sequence_isOfSequence (s : Settings) (row : Option Row) (items : List (Item W)) :
    (sequence s row items).Says fun f j => f = none ∧ ∀ x ∈ j, x.isOfSequence = true := by
  refine says_sequence ?_
  induction items with
  | nil => exact Play.says_skip ⟨rfl, nofun⟩
  | cons i items ih =>
    rw [List.map_cons, Play.inOrder_cons]
    refine says_turn_andThen _ fun calls o _ hcalls => ih.mono ?_
    rintro f j ⟨hf, hj⟩
    refine ⟨hf, fun x hx => ?_⟩
    rw [List.mem_append, List.mem_append, List.mem_map] at hx
    obtain (hx | ⟨o, -, rfl⟩) | hx := hx
    · exact Entry.isOfSequence_of_isCall (hcalls x hx)
    · rfl
    · exact hj x hx

theorem fatal_sequence (s : Settings) (row : Option Row) (items : List (Item W))
    (p : Progress W) : (sequence s row items p).fatal = none :=
  (says_sequence_isOfSequence s row items p).1

/-! ### Turns one after another -/

variable (s row)

/-- The turns of some items, one after another. -/
def turns (items : List (Item W)) : Play W := Play.inOrder (items.map (turn s row))

theorem turns_cons (i : Item W) (items : List (Item W)) (p : Progress W) :
    turns s row (i :: items) p =
      ⟨(i.turn s row p).journal ++ (turns s row items (i.turn s row p).progress).journal,
        (turns s row items (i.turn s row p).progress).progress,
        (turns s row items (i.turn s row p).progress).fatal⟩ := by
  rw [turns, List.map_cons, Play.inOrder_cons, Play.andThen_of_none (fatal_turn s row i p)]
  rfl

theorem fatal_turns (items : List (Item W)) (p : Progress W) :
    (turns s row items p).fatal = none := by
  induction items generalizing p with
  | nil => rfl
  | cons i items ih => rw [turns_cons, ih]

theorem turns_append (items others : List (Item W)) (p : Progress W) :
    turns s row (items ++ others) p =
      ⟨(turns s row items p).journal ++ (turns s row others (turns s row items p).progress).journal,
        (turns s row others (turns s row items p).progress).progress,
        (turns s row others (turns s row items p).progress).fatal⟩ := by
  have ht : turns s row (items ++ others) = (turns s row items).andThen (turns s row others) := by
    rw [turns, List.map_append, Play.inOrder_append]
    rfl
  rw [ht, Play.andThen_of_none (fatal_turns s row items p)]

/-- A state stays fine when it takes note of an outcome that has no error. -/
theorem fine_note (st : RunState) (o : StepOutcome) :
    (st.note o).fine = (st.fine && o.error?.isNone) := by
  unfold RunState.note
  cases o.error? with
  | none => simp
  | some e => simp [RunState.record]

/-- A turn leaves a fine state unless its item failed or was pending. -/
theorem fine_turn (p : Progress W) :
    (i.turn s row p).progress.state.fine =
      (p.state.fine && ((i.result s row p).2.1.bind StepOutcome.error?).isNone) := by
  rw [turn_eq]
  cases (i.result s row p).2.1 with
  | none => simp
  | some o => exact fine_note p.state o

end Item

end PlainStory
