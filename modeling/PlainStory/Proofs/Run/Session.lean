import PlainStory.Proofs.Run.Nesting

/-!
# Sessions

A runner is called again and again. From one call to the next it keeps the state of its last run and
the stack of the paths of open stories: a story puts its path on the stack when it begins and takes it
off after its end, and a run of a story by itself empties the stack first. The definitions of runs hand
these paths down instead. Here the stack is changed step by step, and given stories look at it
(`StackPlay`). The main statement is that no call leaves anything on the stack, however it ends, that
each does what the definitions of runs say, and that earlier calls do not show in a run by itself.
-/

namespace PlainStory

variable {W : Type}

/-! ### Parts on a stack -/

/-- A part of a run that sees and changes the stack of open paths, the innermost first. -/
abbrev StackPlay (W : Type) := List Text → Progress W → Trace W × List Text

namespace StackPlay

/-- Carries out a part that leaves the stack alone. -/
def lift (a : Play W) : StackPlay W := fun opened p => (a p, opened)

def push (path : Text) : StackPlay W := fun opened p => (Play.skip p, path :: opened)

def pop : StackPlay W := fun opened p => (Play.skip p, opened.tail)

def clear : StackPlay W := fun _ p => (Play.skip p, [])

/-- Carries out a part that the stack decides on. -/
def look (a : List Text → StackPlay W) : StackPlay W := fun opened => a opened opened

def andThen (a b : StackPlay W) : StackPlay W := fun opened p =>
  let (t, opened) := a opened p
  match t.fatal with
  | some _ => (t, opened)
  | none =>
    let (u, opened) := b opened t.progress
    (⟨t.journal ++ u.journal, u.progress, u.fatal⟩, opened)

def inOrder : List (StackPlay W) → StackPlay W
  | [] => lift .skip
  | a :: parts => a.andThen (inOrder parts)

def ensuring (a b : StackPlay W) : StackPlay W := fun opened p =>
  let (t, opened) := a opened p
  let (u, opened) := b opened t.progress
  (⟨t.journal ++ u.journal, u.progress, t.fatal.or u.fatal⟩, opened)

/-- On the stack `opened` the first part does what the second one does, and it leaves the stack
`closed`, whether it ends early or not. -/
def Does (opened closed : List Text) (a : StackPlay W) (b : Play W) : Prop :=
  ∀ p, a opened p = (b p, closed)

variable {opened between closed : List Text} {a c : StackPlay W} {b d : Play W}

theorem does_lift (b : Play W) : Does opened opened (lift b) b := fun _ => rfl

theorem does_push (path : Text) : Does opened (path :: opened) (push path : StackPlay W) .skip :=
  fun _ => rfl

theorem does_pop (path : Text) : Does (path :: opened) opened (pop : StackPlay W) .skip :=
  fun _ => rfl

theorem does_clear : Does opened [] (clear : StackPlay W) .skip := fun _ => rfl

theorem does_look {a : List Text → StackPlay W} (h : Does opened closed (a opened) b) :
    Does opened closed (look a) b := h

/-- What follows a part that comes to its end goes on with the stack that it leaves. -/
theorem Does.andThen_of_none (ha : Does opened between a b) (hc : Does between closed c d)
    (hb : ∀ p, (b p).fatal = none) : Does opened closed (a.andThen c) (b.andThen d) := by
  intro p
  rw [Play.andThen_of_none (hb p), StackPlay.andThen, ha p]
  dsimp only
  rw [hb p, hc]

/-- A part that ends early has to leave the stack as what follows would have left it. -/
theorem Does.andThen (ha : Does opened closed a b) (hc : Does closed closed c d) :
    Does opened closed (a.andThen c) (b.andThen d) := by
  intro p
  rw [StackPlay.andThen, ha p]
  dsimp only
  cases hb : (b p).fatal with
  | some e => rw [Play.andThen_of_some hb]
  | none =>
    rw [Play.andThen_of_none hb]
    dsimp only
    rw [hc]

/-- A part that is carried out in any case takes the stack over in any case. -/
theorem Does.ensuring (ha : Does opened between a b) (hc : Does between closed c d) :
    Does opened closed (a.ensuring c) (b.ensuring d) := by
  intro p
  rw [StackPlay.ensuring, ha p]
  dsimp only
  rw [hc]
  rfl

theorem does_inOrder_map {α : Type} {f : α → StackPlay W} {g : α → Play W}
    (h : ∀ x, Does opened opened (f x) (g x)) (xs : List α) :
    Does opened opened (inOrder (xs.map f)) (.inOrder (xs.map g)) := by
  induction xs with
  | nil => exact does_lift _
  | cons x xs ih =>
    rw [List.map_cons, List.map_cons, Play.inOrder_cons]
    exact (h x).andThen ih

end StackPlay

namespace Runner

variable (r : Runner W)

/-! ### Stories on a stack -/

namespace Stacked

open StackPlay

def givenStories (given : Text → StackPlay W) (paths : List Text) : StackPlay W :=
  if paths = [] then lift .skip
  else inOrder [lift (.report (.givenStories paths)), inOrder (paths.map given)]

def scenario (given : Text → StackPlay W) (s : Scenario) : StackPlay W :=
  inOrder
    [lift (.report (.beforeScenario s.title)),
      ensuring (inOrder [givenStories given s.givenStories, lift (r.passes s)])
        (lift (.report .afterScenario))]

def story (given : Text → StackPlay W) (s : Story) (embedded : Bool) : StackPlay W :=
  inOrder
    [push s.path,
      lift (.report (.beforeStory s embedded)),
      lift (r.storyHooks (.beforeStory embedded)),
      ensuring (inOrder (s.scenarios.map (scenario r given)))
        (inOrder [lift (r.storyHooks (.afterStory embedded)), lift (.report (.afterStory embedded)),
          pop])]

/-- The given story at a path, which is recursive if the path is on the stack. What `beyond` says is
in place of the given stories that are nested deeper than so many levels. -/
def given (beyond : Text → StackPlay W) : Nat → Text → StackPlay W
  | 0, path => beyond path
  | depth + 1, path =>
    (lift (.request path)).andThen (look fun opened =>
      if opened.contains path then lift (.fail (.recursive path))
      else
        match r.settings.library.get? path with
        | none => lift (.fail (.load (.notFound path)))
        | some text => story r (given beyond depth) (r.read path text) true)

/-- The given story at a path, where one level for each registered path is deep enough. -/
def givenStory (beyond : Text → StackPlay W) : Text → StackPlay W :=
  given r beyond (r.settings.library.paths.dedup.length + 1)

variable {r} {opened : List Text} {given : Text → StackPlay W} {given' : Text → Play W}

theorem does_scenario (h : ∀ path, Does opened opened (given path) (given' path)) (s : Scenario) :
    Does opened opened (scenario r given s) (r.scenario given' s) := by
  have hgiven : Does opened opened (givenStories given s.givenStories)
      (Runner.givenStories given' s.givenStories) := by
    unfold givenStories Runner.givenStories
    split
    · exact does_lift _
    · simp only [inOrder, Play.inOrder_cons, Play.inOrder_nil]
      exact (does_lift _).andThen ((does_inOrder_map h _).andThen (does_lift _))
  simp only [scenario, Runner.scenario, inOrder, Play.inOrder_cons, Play.inOrder_nil]
  exact (does_lift _).andThen (((hgiven.andThen ((does_lift _).andThen (does_lift _))).ensuring
    (does_lift _)).andThen (does_lift _))

/-- The path that a story puts on the stack is taken off however its scenarios end. -/
theorem does_story {s : Story}
    (h : ∀ path, Does (s.path :: opened) (s.path :: opened) (given path) (given' path))
    (embedded : Bool) :
    Does opened opened (story r given s embedded) (r.story given' s embedded) := by
  have hafter : Does (s.path :: opened) opened
      (inOrder [lift (r.storyHooks (.afterStory embedded)), lift (.report (.afterStory embedded)), pop])
      (.inOrder [r.storyHooks (.afterStory embedded), .report (.afterStory embedded), .skip]) := by
    simp only [inOrder, Play.inOrder_cons, Play.inOrder_nil]
    exact (does_lift _).andThen_of_none ((does_lift _).andThen_of_none
      ((does_pop s.path).andThen (does_lift _)) fun _ => rfl) (Item.fatal_sequence _ _ _)
  have hbody := (does_inOrder_map (does_scenario (r := r) h) s.scenarios).ensuring hafter
  -- the stack changes behind parts that come to their end, so there is no early end in between
  have hstory : Does opened opened (story r given s embedded)
      (.inOrder [.skip, .report (.beforeStory s embedded), r.storyHooks (.beforeStory embedded),
        .ensuring (.inOrder (s.scenarios.map (r.scenario given')))
          (.inOrder [r.storyHooks (.afterStory embedded), .report (.afterStory embedded), .skip])]) := by
    simp only [story, inOrder, Play.inOrder_cons, Play.inOrder_nil] at hbody ⊢
    exact (does_push s.path).andThen_of_none ((does_lift _).andThen_of_none
      ((does_lift _).andThen_of_none (hbody.andThen (does_lift _)) (Item.fatal_sequence _ _ _))
      fun _ => rfl) fun _ => rfl
  simp only [Play.inOrder_cons, Play.inOrder_nil, Play.skip_andThen, Play.andThen_skip] at hstory
  simp only [Runner.story, Play.inOrder_cons, Play.inOrder_nil, Play.andThen_skip]
  exact hstory

/-- On a stack of open paths a given story is run as within these. -/
theorem does_given (beyond : Text → StackPlay W) {depth : Nat} {opened : List Text}
    (hd : r.settings.library.paths.dedup.countP (· ∉ opened) < depth) (path : Text) :
    Does opened opened (Stacked.given r beyond depth path) (r.givenStory opened path) := by
  induction depth generalizing opened path with
  | zero => exact absurd hd (Nat.not_lt_zero _)
  | succ depth ih =>
    rw [Stacked.given, givenStory_eq]
    refine (does_lift _).andThen (does_look ?_)
    simp only [List.contains_iff_mem]
    by_cases ho : path ∈ opened
    · rw [if_pos ho, if_pos ho]
      exact does_lift _
    · rw [if_neg ho, if_neg ho]
      cases hl : r.settings.library.get? path with
      | none => exact does_lift _
      | some text =>
        have hlt := countP_notOpen_lt (List.mem_dedup.2 (Library.mem_paths_of_get? hl)) ho
        exact does_story (fun q => ih (by rw [path_read]; omega) q) true

theorem does_givenStory (beyond : Text → StackPlay W) (opened : List Text) (path : Text) :
    Does opened opened (Stacked.givenStory r beyond path) (r.givenStory opened path) :=
  does_given beyond (Nat.lt_succ_of_le List.countP_le_length) path

end Stacked

/-! ### Calls -/

/-- What a runner keeps from one call to the next. -/
structure Session where
  state : RunState := .initial
  /-- The stack of the paths of open stories. -/
  running : List Text := []

/-- The ways to call a runner: with a story, or with the path of a story to run by itself. -/
inductive Call where
  | story (s : Story) (embedded : Bool)
  | path (path : Text)

/-- Forgets what happened before. -/
def reset : Play W := fun p => ⟨[], { p with state := .initial }, none⟩

/-- Runs a story on a stack. A run by itself takes over neither the state nor the stack. -/
def runStory (beyond : Text → StackPlay W) (s : Story) (embedded : Bool) : StackPlay W :=
  let story := Stacked.story r (Stacked.givenStory r beyond) s embedded
  if embedded then story else .inOrder [.lift reset, .clear, story, .lift r.conclude]

/-- What a call does to a world and leaves of a session. -/
def call (beyond : Text → StackPlay W) (c : Call) (m : Session) (w : W) : Trace W × Session :=
  let (t, running) :=
    match c with
    | .story s embedded => r.runStory beyond s embedded m.running ⟨w, m.state⟩
    | .path path =>
      match r.settings.library.load path with
      | .ok text => r.runStory beyond (r.read path text) false m.running ⟨w, m.state⟩
      | .error e => StackPlay.lift (.fail (.load e)) m.running ⟨w, m.state⟩
  (t, ⟨t.progress.state, running⟩)

/-- What is left of a session after some calls, each with a world of its own. -/
def afterCalls (beyond : Text → StackPlay W) (m : Session) (calls : List (Call × W)) : Session :=
  calls.foldl (fun m c => (r.call beyond c.1 m c.2).2) m

variable {r}

theorem does_runStory_embedded (beyond : Text → StackPlay W) (opened : List Text) (s : Story) :
    StackPlay.Does opened opened (r.runStory beyond s true) (r.embedded opened s) :=
  Stacked.does_story (Stacked.does_givenStory beyond (s.path :: opened)) true

/-- A run by itself is the same on every stack and leaves the empty one. -/
theorem does_runStory_alone (beyond : Text → StackPlay W) (opened : List Text) (s : Story) :
    StackPlay.Does opened [] (r.runStory beyond s false) (r.run s) := by
  have hrun : r.run s = .inOrder
      [reset, .skip, r.story (r.givenStory [s.path]) s false, r.conclude] := by
    simp only [Play.inOrder_cons, Play.inOrder_nil, Play.andThen_skip, Play.skip_andThen]
    rfl
  have hclear : StackPlay.Does opened [] (.clear : StackPlay W) .skip := StackPlay.does_clear
  have hstory : StackPlay.Does [] [] (Stacked.story r (Stacked.givenStory r beyond) s false)
      (r.story (r.givenStory [s.path]) s false) :=
    Stacked.does_story (Stacked.does_givenStory beyond [s.path]) false
  rw [hrun]
  simp only [runStory, Bool.false_eq_true, if_false, StackPlay.inOrder, Play.inOrder_cons,
    Play.inOrder_nil]
  exact (StackPlay.does_lift _).andThen_of_none (hclear.andThen_of_none (hstory.andThen
    ((StackPlay.does_lift _).andThen (StackPlay.does_lift _))) fun _ => rfl) fun _ => rfl

theorem call_embedded (beyond : Text → StackPlay W) (m : Session) (s : Story) (w : W) :
    r.call beyond (.story s true) m w =
      (r.embedded m.running s ⟨w, m.state⟩,
        ⟨(r.embedded m.running s ⟨w, m.state⟩).progress.state, m.running⟩) := by
  unfold call
  dsimp only
  rw [does_runStory_embedded]

/-- A run by itself begins in no state but the initial one, whatever the session. -/
theorem call_alone (beyond : Text → StackPlay W) (m : Session) (s : Story) (w : W) :
    r.call beyond (.story s false) m w =
      (r.run s ⟨w, .initial⟩, ⟨(r.run s ⟨w, .initial⟩).progress.state, []⟩) := by
  unfold call
  dsimp only
  rw [does_runStory_alone]
  rfl

/-- No call opens a story for good. -/
theorem running_call_eq_nil (beyond : Text → StackPlay W) (c : Call) {m : Session}
    (hm : m.running = []) (w : W) : (r.call beyond c m w).2.running = [] := by
  cases c with
  | story s embedded =>
    cases embedded with
    | true => rw [call_embedded, hm]
    | false => rw [call_alone]
  | path path =>
    cases hl : r.settings.library.load path with
    | ok text =>
      have hcall : r.call beyond (.path path) m w =
          r.call beyond (.story (r.read path text) false) m w := by
        simp only [call, hl]
      rw [hcall, call_alone]
    | error e =>
      simp only [call, hl]
      exact hm

theorem running_afterCalls (beyond : Text → StackPlay W) {m : Session} (hm : m.running = [])
    (calls : List (Call × W)) : (r.afterCalls beyond m calls).running = [] := by
  induction calls generalizing m with
  | nil => exact hm
  | cons c calls ih => exact ih (running_call_eq_nil beyond c.1 hm c.2)

variable (r)

/-- Whether it comes to its end or not, an embedded call leaves the stack of open paths as it was, and
a call by itself leaves it empty; what they do is what the definitions of runs say. So after any
calls, whatever came of them, a run by itself tells the same, does the same to the world, ends with
the same result and leaves the same as in a fresh session; and a session that began fresh has no open
paths between calls. -/
theorem session_calls (beyond : Text → StackPlay W) (m : Session) :
    (∀ s w,
      let (t, m') := r.call beyond (.story s true) m w
      m'.running = m.running ∧ t = r.embedded m.running s ⟨w, m.state⟩) ∧
      (∀ s w,
        let (t, m') := r.call beyond (.story s false) m w
        m'.running = [] ∧ t = r.run s ⟨w, m.state⟩) ∧
      (∀ calls s w,
        r.call beyond (.story s false) (r.afterCalls beyond m calls) w =
          r.call beyond (.story s false) {} w) ∧
      ∀ calls s w,
        let m' := r.afterCalls beyond {} calls
        m'.running = [] ∧
          (r.call beyond (.story s true) m' w).1 = r.runEmbedded s ⟨w, m'.state⟩ := by
  refine ⟨?_, ?_, ?_, ?_⟩
  · intro s w
    rw [call_embedded]
    exact ⟨rfl, rfl⟩
  · intro s w
    rw [call_alone]
    exact ⟨rfl, rfl⟩
  · intro calls s w
    rw [call_alone, call_alone]
  · intro calls s w m'
    have hm : m'.running = [] := running_afterCalls beyond rfl calls
    refine ⟨hm, ?_⟩
    rw [call_embedded, hm]
    rfl

end Runner

end PlainStory
