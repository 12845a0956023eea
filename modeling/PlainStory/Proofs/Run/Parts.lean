import PlainStory.Run.Journal

/-!
# Laws of the parts of a run

What parts of a run leave behind when they are put together. `Play.Says` states it of every run of a
part, for its fatal error and its journal; there is one rule for each way of putting parts together.
-/

namespace PlainStory

variable {W : Type}

/-- The events that a journal reports. -/
def eventsOf (journal : List (Entry W)) : List Event := journal.filterMap Entry.event?

@[simp] theorem eventsOf_reported (e : Event) (j : List (Entry W)) :
    eventsOf (.reported e :: j) = e :: eventsOf j := rfl

@[simp] theorem eventsOf_append (i j : List (Entry W)) :
    eventsOf (i ++ j) = eventsOf i ++ eventsOf j := List.filterMap_append

@[simp] theorem eventsOf_outcome (o : Option StepOutcome) :
    eventsOf (o.toList.map fun o => (.reported (.outcome o) : Entry W)) = o.toList.map .outcome := by
  cases o <;> rfl

theorem Trace.events_eq (t : Trace W) : t.events = eventsOf t.journal := rfl

namespace Play

variable {a b : Play W} {G G' : Option RunError → List (Entry W) → Prop}

/-! ### One after another -/

theorem andThen_of_some {p : Progress W} {e : RunError} (h : (a p).fatal = some e) :
    a.andThen b p = a p := by
  simp [andThen, h]

theorem andThen_of_none {p : Progress W} (h : (a p).fatal = none) :
    a.andThen b p =
      ⟨(a p).journal ++ (b (a p).progress).journal, (b (a p).progress).progress,
        (b (a p).progress).fatal⟩ := by
  simp [andThen, h]

theorem inOrder_append (as bs : List (Play W)) :
    inOrder (as ++ bs) = (inOrder as).andThen (inOrder bs) := by
  induction as with
  | nil => simp
  | cons a as ih => rw [List.cons_append, inOrder_cons, inOrder_cons, ih, andThen_assoc]

/-- Asks for the given story at a path. -/
def request (path : Text) : Play W := fun p => ⟨[.requested path], p, none⟩

/-! ### What a part leaves behind -/

/-- Every run of `a` leaves a fatal error, or none, and a journal for which `G` holds. -/
def Says (a : Play W) (G : Option RunError → List (Entry W) → Prop) : Prop :=
  ∀ p, G (a p).fatal (a p).journal

theorem Says.mono (h : a.Says G) (hG : ∀ f j, G f j → G' f j) : a.Says G' :=
  fun p => hG _ _ (h p)

theorem says_skip (h : G none []) : (skip : Play W).Says G := fun _ => h

theorem says_report {e : Event} (h : G none [.reported e]) : (report e : Play W).Says G :=
  fun _ => h

theorem says_fail {e : RunError} (h : G (some e) []) : (fail e : Play W).Says G := fun _ => h

theorem says_andThen
    (h : a.Says fun f i => match f with
      | some e => G (some e) i
      | none => b.Says fun g j => G g (i ++ j)) : (a.andThen b).Says G := by
  intro p
  have hp := h p
  cases hf : (a p).fatal with
  | some e =>
    rw [hf] at hp
    rw [andThen_of_some hf, hf]
    exact hp
  | none =>
    rw [hf] at hp
    rw [andThen_of_none hf]
    exact hp _

theorem says_andThen_of_none {A : List (Entry W) → Prop} (ha : a.Says fun f i => f = none ∧ A i)
    (hb : ∀ i, A i → b.Says fun g j => G g (i ++ j)) : (a.andThen b).Says G := by
  intro p
  obtain ⟨hf, hA⟩ := ha p
  rw [andThen_of_none hf]
  exact hb _ hA _

theorem says_report_andThen {e : Event} (h : b.Says fun f j => G f (.reported e :: j)) :
    ((report e).andThen b).Says G := fun p => h p

theorem says_request_andThen {path : Text} (h : b.Says fun f j => G f (.requested path :: j)) :
    ((request path).andThen b).Says G := fun p => h p

theorem says_ensuring (h : a.Says fun f i => b.Says fun g j => G (f.or g) (i ++ j)) :
    (a.ensuring b).Says G := fun p => h p _

end Play

end PlainStory
