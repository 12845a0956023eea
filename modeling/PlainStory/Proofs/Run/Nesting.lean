import Mathlib.Data.List.Dedup
import Mathlib.Data.List.Induction
import Mathlib.Data.List.Perm.Subperm
import PlainStory.Proofs.Run.Moments
import PlainStory.Proofs.Run.Verdict

/-!
# The nesting of given stories

A given story is run within the stories that are open, and none of these is opened again, so stories
are never nested deeper than the registered paths allow. `Runner.runUpTo` follows given stories to a
bounded depth and leaves open what would happen below. The main statement is that a run needs no
more than one level for each registered path, that the open paths are distinct at every moment of a
run, and that a given story is reported as recursive exactly when it is asked for while it is open.
-/

namespace PlainStory

variable {W : Type}

namespace Runner

variable (r : Runner W)

/-! ### The open paths -/

/-- What holds of the paths that are open at a moment of a run of `top`. -/
structure OpenOnce (top : Story) (opened : List Text) : Prop where
  nodup : opened.Nodup
  known : ∀ path ∈ opened, path = top.path ∨ path ∈ r.settings.library.paths

variable {r} {top : Story}

theorem openOnce_nil : r.OpenOnce top [] := ⟨List.nodup_nil, nofun⟩

theorem OpenOnce.cons {opened : List Text} {path : Text} (h : r.OpenOnce top opened)
    (ho : path ∉ opened) (hp : path = top.path ∨ path ∈ r.settings.library.paths) :
    r.OpenOnce top (path :: opened) :=
  ⟨List.nodup_cons.2 ⟨ho, h.nodup⟩, List.forall_mem_cons.2 ⟨hp, h.known⟩⟩

theorem OpenOnce.tail {opened : List Text} (h : r.OpenOnce top opened) :
    r.OpenOnce top opened.tail :=
  ⟨h.nodup.tail, fun path hp => h.known path (List.mem_of_mem_tail hp)⟩

/-- Distinct paths are no more than there are to choose from. -/
theorem OpenOnce.length_le {opened : List Text} (h : r.OpenOnce top opened) :
    opened.length ≤ 1 + r.settings.library.paths.dedup.length := by
  have hsubset : opened ⊆ top.path :: r.settings.library.paths.dedup := by
    intro path hp
    rw [List.mem_cons, List.mem_dedup]
    exact h.known path hp
  have := (h.nodup.subperm hsubset).length_le
  rw [List.length_cons] at this
  omega

theorem Orderly.openOnce {past future : List (Entry W)} {x : Entry W}
    (hx : r.Orderly top past x future) (h : r.OpenOnce top (openPaths past)) :
    r.OpenOnce top (openPaths (past ++ [x])) := by
  rw [openPaths_append]
  cases x with
  | reported e =>
    cases e with
    | beforeStory s embedded =>
      obtain ⟨asked, -, -, -⟩ := hx
      cases embedded with
      | false =>
        obtain ⟨rfl, rfl⟩ := asked
        exact openOnce_nil.cons nofun (.inl rfl)
      | true =>
        obtain ⟨before, text, rfl, ho, hl, -⟩ := asked
        have hrequest : openPaths (before ++ [.requested s.path]) = openPaths before :=
          openPaths_append ..
        rw [hrequest] at h ⊢
        exact h.cons ho (.inr (Library.mem_paths_of_get? hl))
    | afterStory embedded => exact h.tail
    | _ => exact h
  | _ => exact h

/-- At every moment of a run the open paths are distinct. -/
theorem openOnce_run (s : Story) (p : Progress W) {past future : List (Entry W)}
    (h : (r.run s p).journal = past ++ future) : r.OpenOnce s (openPaths past) := by
  induction past using List.reverseRecOn generalizing future with
  | nil => exact openOnce_nil
  | append_singleton past x ih =>
    rw [List.append_assoc] at h
    exact (r.throughout_orderly_run s p past x future h).openOnce (ih h)

/-! ### The depth of a run -/

variable (r)

/-- The part of a run in which the given story at a path is run, as `givenStory`, but with what
`beyond` says in place of the given stories that are nested deeper than so many levels. -/
def givenStoryUpTo (beyond : List Text → Text → Play W) : Nat → List Text → Text → Play W
  | 0, opened, path => beyond opened path
  | depth + 1, opened, path =>
    (Play.request path).andThen
      (if opened.contains path then .fail (.recursive path)
      else
        match r.settings.library.get? path with
        | none => .fail (.load (.notFound path))
        | some text =>
          r.story (givenStoryUpTo beyond depth (path :: opened)) (r.read path text) true)

/-- A run that follows given stories so many levels deep. -/
def runUpTo (beyond : List Text → Text → Play W) (depth : Nat) (s : Story) : Play W := fun p =>
  Play.andThen (r.story (r.givenStoryUpTo beyond depth [s.path]) s false) r.conclude
    { p with state := .initial }

/-- There are no given stories deeper than there are registered paths that are not open. -/
theorem givenStoryUpTo_eq (beyond : List Text → Text → Play W) {depth : Nat} {opened : List Text}
    (h : r.settings.library.paths.dedup.countP (· ∉ opened) < depth) (path : Text) :
    r.givenStoryUpTo beyond depth opened path = r.givenStory opened path := by
  induction depth generalizing opened path with
  | zero => exact absurd h (Nat.not_lt_zero _)
  | succ depth ih =>
    rw [givenStoryUpTo, givenStory_eq]
    simp only [List.contains_iff_mem]
    by_cases ho : path ∈ opened
    · rw [if_pos ho, if_pos ho]
    · rw [if_neg ho, if_neg ho]
      cases hl : r.settings.library.get? path with
      | none => rfl
      | some text =>
        -- the path that is opened is registered, so one fewer is left
        have hlt := countP_notOpen_lt (List.mem_dedup.2 (Library.mem_paths_of_get? hl)) ho
        have hgiven : r.givenStoryUpTo beyond depth (path :: opened) =
            r.givenStory (path :: opened) := funext fun q => ih (by omega) q
        rw [hgiven]

theorem runUpTo_eq (beyond : List Text → Text → Play W) (s : Story) :
    r.runUpTo beyond (r.settings.library.paths.dedup.length + 1) s = r.run s := by
  have hgiven : r.givenStoryUpTo beyond (r.settings.library.paths.dedup.length + 1) [s.path] =
      r.givenStory [s.path] :=
    funext fun q => r.givenStoryUpTo_eq beyond (Nat.lt_succ_of_le List.countP_le_length) q
  unfold runUpTo run
  rw [hgiven]

end Runner

/-! ### Refusals -/

/-- The error of a given story that is asked for and refused, while some paths are open. -/
def Entry.refusal? (l : Library) (opened : List Text) : Entry W → Option RunError
  | requested path =>
    if opened.contains path then some (.recursive path)
    else if l.get? path = none then some (.load (.notFound path))
    else none
  | _ => none

/-- The errors of the given stories that are refused, where some paths are open at the beginning. -/
def refusalsFrom (l : Library) : List Text → List (Entry W) → List RunError
  | _, [] => []
  | opened, x :: j => (x.refusal? l opened).toList ++ refusalsFrom l (x.openAfter opened) j

section Refusals

variable {l : Library}

theorem refusalsFrom_append (opened : List Text) (i j : List (Entry W)) :
    refusalsFrom l opened (i ++ j) =
      refusalsFrom l opened i ++ refusalsFrom l (i.foldl Entry.openAfter opened) j := by
  induction i generalizing opened with
  | nil => rfl
  | cons x i ih =>
    simp only [List.cons_append, refusalsFrom, ih, List.foldl_cons, List.append_assoc]

theorem note_eq (q : Requests) (x : Entry W) :
    Requests.note l q x =
      ⟨x.openAfter q.opened, q.refused ++ (x.refusal? l q.opened).toList⟩ := by
  cases x with
  | reported e => cases e <;> simp [Requests.note, Entry.openAfter, Entry.refusal?]
  | requested path =>
    by_cases ho : path ∈ q.opened <;> by_cases hl : l.get? path = none <;>
      simp [Requests.note, Entry.openAfter, Entry.refusal?, ho, hl]
  | _ => simp [Requests.note, Entry.openAfter, Entry.refusal?]

theorem foldl_note (q : Requests) (j : List (Entry W)) :
    (j.foldl (Requests.note l) q).refused = q.refused ++ refusalsFrom l q.opened j := by
  induction j generalizing q with
  | nil => simp [refusalsFrom]
  | cons x j ih => rw [List.foldl_cons, ih, note_eq, refusalsFrom, List.append_assoc]

theorem refusals_eq (j : List (Entry W)) : refusals l j = refusalsFrom l [] j :=
  (foldl_note {} j).trans (List.nil_append _)

/-- The refusals of a journal are those before one of its entries, that of the entry, if there is
one, and those behind it. -/
theorem refusals_append_cons (past : List (Entry W)) (x : Entry W) (future : List (Entry W)) :
    refusals l (past ++ x :: future) =
      refusals l past ++ ((x.refusal? l (openPaths past)).toList ++
        refusalsFrom l (openPaths (past ++ [x])) future) := by
  rw [refusals_eq, refusals_eq, refusalsFrom_append, refusalsFrom, openPaths_append]
  rfl

theorem mem_refusalsFrom {e : RunError} {opened : List Text} {j : List (Entry W)}
    (h : e ∈ refusalsFrom l opened j) : ∃ past x future, j = past ++ x :: future ∧
      x.refusal? l (past.foldl Entry.openAfter opened) = some e := by
  induction j generalizing opened with
  | nil => exact absurd h nofun
  | cons y j ih =>
    rw [refusalsFrom, List.mem_append, Option.mem_toList] at h
    rcases h with h | h
    · exact ⟨[], y, j, rfl, h⟩
    · obtain ⟨past, x, future, rfl, hx⟩ := ih h
      exact ⟨y :: past, x, future, rfl, hx⟩

/-- An error is among the refusals of a journal if an entry of it is refused with that error. -/
theorem mem_refusals_iff {e : RunError} {j : List (Entry W)} :
    e ∈ refusals l j ↔
      ∃ past x future, j = past ++ x :: future ∧ x.refusal? l (openPaths past) = some e := by
  constructor
  · intro h
    rw [refusals_eq] at h
    exact mem_refusalsFrom h
  · rintro ⟨past, x, future, rfl, hx⟩
    simp [refusals_append_cons, hx]

/-- What is refused as recursive is a given story that is open. -/
theorem Entry.refusal?_eq_recursive_iff {x : Entry W} {opened : List Text} {path : Text} :
    x.refusal? l opened = some (.recursive path) ↔ x = .requested path ∧ path ∈ opened := by
  cases x with
  | requested q =>
    by_cases ho : q ∈ opened
    · simp only [refusal?, List.contains_iff_mem, if_pos ho, Option.some.injEq, RunError.recursive.injEq, requested.injEq]
      constructor
      · rintro rfl
        exact ⟨rfl, ho⟩
      · exact fun h => h.1
    · have hne : ¬ (q = path ∧ path ∈ opened) := by
        rintro ⟨rfl, h⟩
        exact ho h
      by_cases hl : l.get? q = none <;> simp [refusal?, ho, hl, hne]
  | _ => simp [refusal?]

theorem Entry.refusal?_requested_eq_none_iff {opened : List Text} {path : Text} :
    (requested path : Entry W).refusal? l opened = none ↔ path ∉ opened ∧ l.get? path ≠ none := by
  by_cases ho : path ∈ opened <;> by_cases hl : l.get? path = none <;> simp [refusal?, ho, hl]

end Refusals

namespace Runner

variable (r : Runner W)

/-- A run refuses one given story at most. -/
theorem length_refusals_run (s : Story) (p : Progress W) :
    (refusals r.settings.library (r.run s p).journal).length ≤ 1 := by
  have h := r.refusals_performance s p
  have hlength : (r.performance s p).fatal.toList.length ≤ 1 := by
    cases (r.performance s p).fatal <;> simp
  cases hf : (r.performance s p).fatal with
  | some e => rwa [r.run_of_some hf, h]
  | none => rwa [r.run_of_none hf, refusals_append_consulted, h]

/-- A run ends with the error of recursion that it refuses a given story with. -/
theorem fatal_run_eq_recursive_iff (s : Story) (p : Progress W) (path : Text) :
    (r.run s p).fatal = some (.recursive path) ↔
      .recursive path ∈ refusals r.settings.library (r.run s p).journal := by
  have h := r.refusals_performance s p
  cases hf : (r.performance s p).fatal with
  | some e => rw [r.run_of_some hf, h, Option.mem_toList]
  | none =>
    have hverdict : r.verdict (r.performance s p).progress.state ≠ some (.recursive path) := by
      unfold verdict
      split <;> exact nofun
    rw [r.run_of_none hf, refusals_append_consulted, h, hf]
    exact ⟨fun hv => absurd hv hverdict, nofun⟩

/-- Behind a given story that is refused no other one is. -/
theorem refusal?_eq_none_of_later {s : Story} {p : Progress W}
    {past between future : List (Entry W)} {x y : Entry W}
    (h : (r.run s p).journal = past ++ x :: (between ++ y :: future))
    (hx : x.refusal? r.settings.library (openPaths past) ≠ none) :
    y.refusal? r.settings.library (openPaths (past ++ x :: between)) = none := by
  have hlength := r.length_refusals_run s p
  obtain ⟨e, he⟩ := Option.ne_none_iff_exists'.1 hx
  rw [h, ← List.cons_append, ← List.append_assoc, refusals_append_cons, refusals_append_cons, he]
    at hlength
  cases hy : y.refusal? r.settings.library (openPaths (past ++ x :: between)) with
  | none => rfl
  | some e' =>
    simp only [hy, Option.toList_some, List.length_append, List.length_cons, List.length_nil]
      at hlength
    omega

/-- A given story that is asked for again is run again, unless a story that has its path was opened
since and is still open. -/
theorem runsNext_of_asked_before {s : Story} {p : Progress W}
    {past between future : List (Entry W)} {path : Text}
    (h : (r.run s p).journal = past ++ .requested path :: (between ++ .requested path :: future))
    (ho : ∀ q ∈ openPaths (past ++ .requested path :: between), q ∈ openPaths past ∨ q ≠ path) :
    r.RunsNext path future := by
  have hsplit : (r.run s p).journal =
      (past ++ .requested path :: between) ++ .requested path :: future := by
    rw [h, List.append_assoc, List.cons_append]
  have hlater := r.refusal?_eq_none_of_later h
  rw [Ne, Entry.refusal?_requested_eq_none_iff, Entry.refusal?_requested_eq_none_iff] at hlater
  obtain hopen | hmissing | hruns := r.throughout_orderly_run s p _ _ _ hsplit
  · -- it was open before, so it was refused then, and a run does not go on behind that
    have hopenBefore : path ∈ openPaths past := (ho path hopen).resolve_right (· rfl)
    exact absurd hopen (hlater fun hfine => hfine.1 hopenBefore).1
  · exact absurd hmissing (hlater fun hfine => hfine.2 hmissing).2
  · rwa [List.append_nil] at hruns

/-- A run follows given stories no deeper than one level for each registered path. At every moment
of it the open paths are distinct, so that no more stories are nested than the one that is run and
one for each registered path. It ends with an error of recursion exactly if a given story is asked
for while its path is open. A given story that is asked for again, while no story with its path that
was opened since is still open, is run again. -/
theorem nesting_run (s : Story) (p : Progress W) :
    let t := r.run s p
    let registered := r.settings.library.paths.dedup.length
    (∀ beyond, r.runUpTo beyond (registered + 1) s p = t) ∧
      (∀ past future, t.journal = past ++ future →
        (openPaths past).Nodup ∧ (openPaths past).length ≤ 1 + registered) ∧
      (∀ path, t.fatal = some (.recursive path) ↔
        ∃ past future, t.journal = past ++ .requested path :: future ∧ path ∈ openPaths past) ∧
      ∀ past between future path,
        t.journal = past ++ .requested path :: (between ++ .requested path :: future) →
        (∀ q ∈ openPaths (past ++ .requested path :: between), q ∈ openPaths past ∨ q ≠ path) →
        r.RunsNext path future := by
  intro t registered
  refine ⟨fun beyond => congrFun (r.runUpTo_eq beyond s) p, fun past future h => ?_, fun path => ?_,
    fun past between future path => r.runsNext_of_asked_before⟩
  · have := openOnce_run s p h
    exact ⟨this.nodup, this.length_le⟩
  · rw [r.fatal_run_eq_recursive_iff, mem_refusals_iff]
    constructor
    · rintro ⟨past, x, future, hj, hx⟩
      obtain ⟨rfl, ho⟩ := Entry.refusal?_eq_recursive_iff.1 hx
      exact ⟨past, future, hj, ho⟩
    · rintro ⟨past, future, hj, ho⟩
      exact ⟨past, _, future, hj, Entry.refusal?_eq_recursive_iff.2 ⟨rfl, ho⟩⟩

/-- A story may be given twice, but not by one that it gives itself. -/
example :
    let library : Library := .ofPairs
      [("a", "Scenario: x\nGivenStories: b"), ("b", "Scenario: y\nGivenStories: a"), ("c", "")]
    let r : Runner Unit := { settings := { library := library } }
    (r.run (r.read "top" "Scenario: z\nGivenStories: c, c, a") ⟨(), {}⟩).fatal =
      some (.recursive "a") := by
  intro library r
  rw [← r.runUpTo_eq fun _ _ => .skip]
  decide +kernel

end Runner

end PlainStory
