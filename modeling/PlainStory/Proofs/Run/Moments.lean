import PlainStory.Proofs.Run.StoryJournal

/-!
# The moments of a run

Which stories are open at a moment of a run is read off what was recorded up to then. A statement
about every moment, `Throughout`, speaks of an entry together with what was recorded before it and
what is recorded after it. `Runner.Orderly` is what holds at every moment of a run: a given story
that is asked for begins at once unless it is refused, and a story that begins is run to its end,
between its hooks.
-/

namespace PlainStory

variable {W : Type}

/-! ### The stories that are open -/

/-- The paths of the open stories after an entry, the innermost first. -/
def Entry.openAfter (opened : List Text) : Entry W → List Text
  | reported (.beforeStory s _) => s.path :: opened
  | reported (.afterStory _) => opened.tail
  | _ => opened

/-- The paths of the stories that are open at the end of a journal, the innermost first. -/
def openPaths (journal : List (Entry W)) : List Text := journal.foldl Entry.openAfter []

theorem openPaths_append (i j : List (Entry W)) :
    openPaths (i ++ j) = j.foldl Entry.openAfter (openPaths i) := List.foldl_append ..

/-- Whether an entry neither asks for a story nor begins or ends one. -/
def Entry.isQuiet : Entry W → Bool
  | reported (.beforeStory _ _) | reported (.afterStory _) | requested _ => false
  | reported _ | hookCalled _ | stepCalled _ _ | consulted _ _ => true

theorem Entry.isQuiet_of_isOfScenario {x : Entry W} (hx : x.isOfScenario = true) :
    x.isQuiet = true := by
  unfold isQuiet
  split <;> first | rfl | cases hx

theorem Entry.isQuiet_of_isOfSequence {x : Entry W} (hx : x.isOfSequence = true) :
    x.isQuiet = true := by
  unfold isQuiet
  split <;> first | rfl | cases hx

theorem Entry.openAfter_of_isQuiet {x : Entry W} (hx : x.isQuiet = true) (opened : List Text) :
    x.openAfter opened = opened := by
  unfold openAfter
  split <;> first | rfl | cases hx

theorem foldl_openAfter_of_isOfSequence {j : List (Entry W)} (hj : ∀ x ∈ j, x.isOfSequence = true)
    (opened : List Text) : j.foldl Entry.openAfter opened = opened := by
  induction j with
  | nil => rfl
  | cons x j ih =>
    have hx : x.isQuiet = true := Entry.isQuiet_of_isOfSequence (hj x List.mem_cons_self)
    rw [List.foldl_cons, Entry.openAfter_of_isQuiet hx]
    exact ih fun y hy => hj y (List.mem_cons_of_mem x hy)

namespace Runner

variable {r : Runner W} {opened : List Text}

/-- Within a story as many stories are open at the end as at the beginning. -/
theorem InnerJournal.foldl_openAfter {j : List (Entry W)} (h : r.InnerJournal opened j) :
    j.foldl Entry.openAfter opened = opened := by
  induction h with
  | nil => rfl
  | entry hx _ ih =>
    rw [List.foldl_cons, Entry.openAfter_of_isQuiet (Entry.isQuiet_of_isOfScenario hx), ih]
  | refused _ _ ih => exact ih
  | @story opened path text setUp body tearDown journal _ _ before _ after _ ihInner ihRest =>
    have hsetUp := foldl_openAfter_of_isOfSequence before.isOfSequence (path :: opened)
    have htearDown := foldl_openAfter_of_isOfSequence after.isOfSequence (path :: opened)
    simp only [List.foldl_cons, List.foldl_append, Entry.openAfter, path_read, hsetUp, ihInner,
      htearDown, List.tail_cons, ihRest]

end Runner

/-! ### Every moment -/

/-- What holds of every entry of a journal, given what was recorded before the journal and what is
recorded after it. -/
def Throughout (Q : List (Entry W) → Entry W → List (Entry W) → Prop)
    (past journal future : List (Entry W)) : Prop :=
  ∀ earlier x later, journal = earlier ++ x :: later → Q (past ++ earlier) x (later ++ future)

section Throughout

variable {Q : List (Entry W) → Entry W → List (Entry W) → Prop} {past future : List (Entry W)}

theorem throughout_nil : Throughout Q past [] future := by
  intro earlier x later h
  cases earlier <;> exact absurd h nofun

theorem throughout_cons {x : Entry W} {j : List (Entry W)} :
    Throughout Q past (x :: j) future ↔
      Q past x (j ++ future) ∧ Throughout Q (past ++ [x]) j future := by
  constructor
  · intro h
    refine ⟨?_, fun earlier y later hj => ?_⟩
    · have := h [] x j rfl
      rwa [List.append_nil] at this
    · have := h (x :: earlier) y later (by rw [hj, List.cons_append])
      rwa [List.append_cons] at this
  · rintro ⟨hx, hj⟩ earlier y later h
    cases earlier with
    | nil =>
      obtain ⟨rfl, rfl⟩ := List.cons.inj h
      rwa [List.append_nil]
    | cons z earlier =>
      obtain ⟨rfl, rfl⟩ := List.cons.inj h
      rw [List.append_cons]
      exact hj earlier y later rfl

theorem throughout_append {i j : List (Entry W)} :
    Throughout Q past (i ++ j) future ↔
      Throughout Q past i (j ++ future) ∧ Throughout Q (past ++ i) j future := by
  induction i generalizing past with
  | nil => simp [throughout_nil]
  | cons x i ih =>
    rw [List.cons_append, throughout_cons, throughout_cons, ih, List.append_assoc, and_assoc,
      List.append_cons past x i]

theorem throughout_of_forall {j : List (Entry W)} (h : ∀ x ∈ j, ∀ past future, Q past x future) :
    Throughout Q past j future := by
  rintro earlier x later rfl
  exact h x (by simp) _ _

end Throughout

namespace Runner

variable (r : Runner W) (top : Story)

/-- How a story comes to begin in a run of `top`: it is that story, or a given story that was just
asked for and is neither open nor missing. -/
def Asked (past : List (Entry W)) (s : Story) : Bool → Prop
  | false => past = [] ∧ s = top
  | true => ∃ before text, past = before ++ [.requested s.path] ∧ s.path ∉ openPaths before ∧
      r.settings.library.get? s.path = some text ∧ s = r.read s.path text

/-- What is recorded of a story that begins: it was asked for, and it is run to its end. -/
inductive StoryAt (past : List (Entry W)) (s : Story) (embedded : Bool) :
    List (Entry W) → Prop where
  | story {setUp body tearDown future} (asked : r.Asked top past s embedded)
    (before : r.HookJournal (.beforeStory embedded) setUp)
    (inner : r.InnerJournal (s.path :: openPaths past) body)
    (after : r.HookJournal (.afterStory embedded) tearDown) :
    StoryAt past s embedded
      (setUp ++ body ++ tearDown ++ .reported (.afterStory embedded) :: future)

/-- Whether a given story that is asked for is run, with its text. -/
def RunsNext (path : Text) (future : List (Entry W)) : Prop :=
  ∃ text later, r.settings.library.get? path = some text ∧
    future = .reported (.beforeStory (r.read path text) true) :: later

/-- What holds of every entry of a run of `top`. -/
def Orderly (past : List (Entry W)) : Entry W → List (Entry W) → Prop
  | .requested path, future =>
    path ∈ openPaths past ∨ r.settings.library.get? path = none ∨ r.RunsNext path future
  | .reported (.beforeStory s embedded), future => r.StoryAt top past s embedded future
  | _, _ => True

variable {r top} {past future : List (Entry W)}

theorem orderly_of_isQuiet {x : Entry W} (hx : x.isQuiet = true) :
    r.Orderly top past x future := by
  unfold Orderly
  split <;> first | exact trivial | cases hx

theorem HookJournal.throughout_orderly {place : HookPlace} {j : List (Entry W)}
    (h : r.HookJournal place j) : Throughout (r.Orderly top) past j future :=
  throughout_of_forall fun x hx _ _ =>
    orderly_of_isQuiet (Entry.isQuiet_of_isOfSequence (h.isOfSequence x hx))

/-- A story is orderly if it was asked for, and what is recorded within it and behind it is. -/
theorem throughout_orderly_story {s : Story} {embedded : Bool}
    {setUp body tearDown journal : List (Entry W)} (asked : r.Asked top past s embedded)
    (before : r.HookJournal (.beforeStory embedded) setUp)
    (inner : r.InnerJournal (s.path :: openPaths past) body)
    (after : r.HookJournal (.afterStory embedded) tearDown)
    (hbody : ∀ earlier future, openPaths earlier = s.path :: openPaths past →
      Throughout (r.Orderly top) earlier body future)
    (rest : ∀ earlier, openPaths earlier = openPaths past →
      Throughout (r.Orderly top) earlier journal future) :
    Throughout (r.Orderly top) past (.reported (.beforeStory s embedded) ::
      (setUp ++ body ++ tearDown ++ .reported (.afterStory embedded) :: journal)) future := by
  have hsetUp : openPaths (past ++ [.reported (.beforeStory s embedded)] ++ setUp) =
      s.path :: openPaths past := by
    rw [openPaths_append, openPaths_append, foldl_openAfter_of_isOfSequence before.isOfSequence]
    rfl
  have htearDown : openPaths (past ++ [.reported (.beforeStory s embedded)] ++
      (setUp ++ body ++ tearDown) ++ [.reported (.afterStory embedded)]) = openPaths past := by
    rw [openPaths_append, ← List.append_assoc, ← List.append_assoc, openPaths_append,
      openPaths_append, hsetUp, inner.foldl_openAfter,
      foldl_openAfter_of_isOfSequence after.isOfSequence]
    rfl
  refine throughout_cons.2 ⟨?_, throughout_append.2 ⟨throughout_append.2
    ⟨throughout_append.2 ⟨?_, ?_⟩, ?_⟩, throughout_cons.2 ⟨trivial, ?_⟩⟩⟩
  · show r.StoryAt top past s embedded _
    rw [List.append_assoc, List.cons_append]
    exact .story asked before inner after
  · exact before.throughout_orderly
  · exact hbody _ _ hsetUp
  · exact after.throughout_orderly
  · exact rest _ htearDown

theorem InnerJournal.throughout_orderly {opened : List Text} {j : List (Entry W)}
    (h : r.InnerJournal opened j) (hp : openPaths past = opened) :
    Throughout (r.Orderly top) past j future := by
  -- the entry moves from what is recorded later to what was recorded before, for any of both
  induction h generalizing past future with
  | nil => exact throughout_nil
  | @entry opened x journal hx _ ih =>
    have hquiet : x.isQuiet = true := Entry.isQuiet_of_isOfScenario hx
    refine throughout_cons.2 ⟨orderly_of_isQuiet hquiet, ih ?_⟩
    rw [openPaths_append, hp]
    exact Entry.openAfter_of_isQuiet hquiet opened
  | @refused opened path journal hr _ ih =>
    refine throughout_cons.2 ⟨?_, ih ((openPaths_append ..).trans hp)⟩
    subst hp
    exact hr.imp_right .inl
  | @story opened path text setUp body tearDown journal ho hl before inner after _ ihInner ihRest =>
    have hrequest : openPaths (past ++ [.requested path]) = opened := (openPaths_append ..).trans hp
    have inner' : r.InnerJournal (path :: openPaths (past ++ [.requested path])) body := by
      rwa [hrequest]
    refine throughout_cons.2 ⟨.inr (.inr ⟨text, _, hl, rfl⟩),
      throughout_orderly_story ?_ before inner' after (fun earlier future he => ihInner ?_)
        (fun earlier he => ihRest ?_)⟩
    · subst hp
      exact ⟨past, text, rfl, ho, hl, rfl⟩
    · rw [he, hrequest]
      rfl
    · rw [he, hrequest]

theorem StoryJournal.throughout_orderly {j : List (Entry W)} (h : r.StoryJournal [] top false j) :
    Throughout (r.Orderly top) [] j future := by
  obtain ⟨before, inner, after⟩ := h
  exact throughout_orderly_story ⟨rfl, rfl⟩ before inner after
    (fun _ _ he => inner.throughout_orderly he) fun _ _ => throughout_nil

/-- Every moment of a run is orderly. -/
theorem throughout_orderly_run (s : Story) (p : Progress W) :
    Throughout (r.Orderly s) [] (r.run s p).journal [] := by
  have h := r.storyJournal_performance s p
  cases hf : (r.performance s p).fatal with
  | some e =>
    rw [r.run_of_some hf]
    exact h.throughout_orderly
  | none =>
    rw [r.run_of_none hf]
    exact throughout_append.2
      ⟨h.throughout_orderly, throughout_cons.2 ⟨trivial, throughout_nil⟩⟩

end Runner

end PlainStory
