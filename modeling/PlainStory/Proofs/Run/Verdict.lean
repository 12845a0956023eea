import PlainStory.Proofs.Run.Composition

/-!
# The outstanding error and the verdict

The outstanding error of a run depends on nothing but its events: it is the error of the first failed
outcome, or else of the first pending one. The errors of given stories are replayed from the journal,
which tells what was asked for and which stories were open. The main statement is that the first of
these decides a run by itself, and that otherwise one strategy is asked about the outstanding error.
-/

namespace PlainStory

variable {W : Type}

/-! ### The outstanding error of a stream -/

def Event.failure? : Event → Option StepError
  | outcome (.failed _ e) => some e
  | _ => none

def Event.pending? : Event → Option StepError
  | outcome (.pending step) => some (.pending step)
  | _ => none

/-- The error of the first failed outcome, or of the first pending one if none failed. -/
def outstandingOf (es : List Event) : Option StepError :=
  (es.findSome? Event.failure?).or (es.findSome? Event.pending?)

/-- Takes the error of an event into account, if it has one. -/
def Event.weigh (outstanding : Option StepError) (e : Event) : Option StepError :=
  match e.outcome?.bind StepOutcome.error? with
  | some error => some (.mostImportant outstanding error)
  | none => outstanding

/-- A failed outcome carries the error of a failure. -/
def Event.IsSound (e : Event) : Prop := ∀ error, e.failure? = some error → error.isFailure = true

/-- An event fails, is pending, or has no error to take into account. -/
theorem Event.weigh_cases {e : Event} (he : e.IsSound) :
    (∃ error, e.failure? = some error ∧ error.isFailure = true ∧
      ∀ o, Event.weigh o e = some (.mostImportant o error)) ∨
    (∃ step, e.failure? = none ∧ e.pending? = some (.pending step) ∧
      ∀ o, Event.weigh o e = some (.mostImportant o (.pending step))) ∨
    (e.failure? = none ∧ e.pending? = none ∧ ∀ o, Event.weigh o e = o) := by
  cases e with
  | outcome o =>
    cases o with
    | failed step error => exact .inl ⟨error, rfl, he error rfl, fun _ => rfl⟩
    | pending step => exact .inr (.inl ⟨step, rfl, rfl, fun _ => rfl⟩)
    | successful _ => exact .inr (.inr ⟨rfl, rfl, fun _ => rfl⟩)
    | notPerformed _ => exact .inr (.inr ⟨rfl, rfl, fun _ => rfl⟩)
    | comment _ => exact .inr (.inr ⟨rfl, rfl, fun _ => rfl⟩)
  | beforeStory _ _ => exact .inr (.inr ⟨rfl, rfl, fun _ => rfl⟩)
  | afterStory _ => exact .inr (.inr ⟨rfl, rfl, fun _ => rfl⟩)
  | beforeScenario _ => exact .inr (.inr ⟨rfl, rfl, fun _ => rfl⟩)
  | afterScenario => exact .inr (.inr ⟨rfl, rfl, fun _ => rfl⟩)
  | givenStories _ => exact .inr (.inr ⟨rfl, rfl, fun _ => rfl⟩)
  | beforeExamples _ _ => exact .inr (.inr ⟨rfl, rfl, fun _ => rfl⟩)
  | exampleRow _ => exact .inr (.inr ⟨rfl, rfl, fun _ => rfl⟩)
  | afterExamples => exact .inr (.inr ⟨rfl, rfl, fun _ => rfl⟩)

/-- A failure that is outstanding stays so. -/
theorem foldl_weigh_failure {error : StepError} (h : error.isFailure = true) (es : List Event) :
    es.foldl Event.weigh (some error) = some error := by
  induction es with
  | nil => rfl
  | cons e es ih =>
    have he : e.weigh (some error) = some error := by
      unfold Event.weigh
      split <;> simp [StepError.mostImportant, h]
    rw [List.foldl_cons, he, ih]

/-- A pending step that is outstanding gives way to a failure only. -/
theorem foldl_weigh_pending {es : List Event} (h : ∀ e ∈ es, e.IsSound) (step : Text) :
    es.foldl Event.weigh (some (.pending step)) =
      (es.findSome? Event.failure?).or (some (.pending step)) := by
  induction es with
  | nil => rfl
  | cons e es ih =>
    have hes := ih fun x hx => h x (List.mem_cons_of_mem _ hx)
    rw [List.foldl_cons, List.findSome?_cons]
    obtain ⟨error, hf, herror, hw⟩ | ⟨_, hf, -, hw⟩ | ⟨hf, -, hw⟩ :=
      Event.weigh_cases (h e List.mem_cons_self)
    · have hm : StepError.mostImportant (some (.pending step)) error = error := by
        cases error with
        | pending _ => exact absurd herror nofun
        | failed _ => rfl
      rw [hw, hm, hf, foldl_weigh_failure herror]
      rfl
    · rw [hw, hf]
      exact hes
    · rw [hw, hf]
      exact hes

/-- What a stream makes outstanding from nothing. -/
theorem foldl_weigh_none {es : List Event} (h : ∀ e ∈ es, e.IsSound) :
    es.foldl Event.weigh none = outstandingOf es := by
  induction es with
  | nil => rfl
  | cons e es ih =>
    have hes : ∀ x ∈ es, x.IsSound := fun x hx => h x (List.mem_cons_of_mem _ hx)
    rw [List.foldl_cons, outstandingOf, List.findSome?_cons, List.findSome?_cons]
    obtain ⟨error, hf, herror, hw⟩ | ⟨step, hf, hp, hw⟩ | ⟨hf, hp, hw⟩ :=
      Event.weigh_cases (h e List.mem_cons_self)
    · rw [hw, hf, StepError.mostImportant, foldl_weigh_failure herror]
      rfl
    · rw [hw, hf, hp, StepError.mostImportant, foldl_weigh_pending hes]
    · rw [hw, hf, hp, ih hes, outstandingOf]

/-! ### The outstanding error of a run -/

namespace Runner

variable (r : Runner W)

/-- A part reports sound events and leaves outstanding what they make of what was so before. -/
def Tracks (a : Play W) : Prop :=
  ∀ p, (∀ e ∈ (a p).events, e.IsSound) ∧
    (a p).progress.state.outstanding = (a p).events.foldl Event.weigh p.state.outstanding

theorem tracks_report {e : Event} (he : e.outcome? = none) : Tracks (.report e : Play W) := by
  intro p
  have hf : e.failure? = none := by cases e <;> first | rfl | exact absurd he nofun
  have hw : Event.weigh p.state.outstanding e = p.state.outstanding := by
    rw [Event.weigh, he]
    rfl
  refine ⟨fun x hx => ?_, ?_⟩
  · obtain rfl := List.mem_singleton.1 hx
    exact fun error h => absurd (hf.symm.trans h) nofun
  · exact hw.symm

/-- What is tracked through one part and then another is tracked through both. -/
theorem Tracks.trans {a b : Play W} (ha : Tracks a) (hb : Tracks b) (p : Progress W) :
    (∀ e ∈ eventsOf ((a p).journal ++ (b (a p).progress).journal), e.IsSound) ∧
      (b (a p).progress).progress.state.outstanding =
        (eventsOf ((a p).journal ++ (b (a p).progress).journal)).foldl Event.weigh
          p.state.outstanding := by
  obtain ⟨hsa, hoa⟩ := ha p
  obtain ⟨hsb, hob⟩ := hb (a p).progress
  rw [eventsOf_append]
  refine ⟨fun e he => (List.mem_append.1 he).elim (hsa e) (hsb e), ?_⟩
  rw [List.foldl_append, ← Trace.events_eq, ← Trace.events_eq, ← hoa]
  exact hob

theorem tracks_andThen {a b : Play W} (ha : Tracks a) (hb : Tracks b) :
    Tracks (a.andThen b) := by
  intro p
  cases hf : (a p).fatal with
  | some e =>
    rw [Play.andThen_of_some hf]
    exact ha p
  | none =>
    rw [Play.andThen_of_none hf]
    exact ha.trans hb p

theorem tracks_ensuring {a b : Play W} (ha : Tracks a) (hb : Tracks b) :
    Tracks (a.ensuring b) := fun p => ha.trans hb p

theorem tracks_turn (s : Settings) (row : Option Row) (i : Item W) : Tracks (i.turn s row) := by
  intro p
  rw [Item.events_turn]
  have hc := Item.canHave_result s row i p
  have hs : (i.turn s row p).progress.state =
      (i.result s row p).2.1.elim p.state p.state.note := by rw [Item.turn_eq]
  rw [hs]
  cases ho : (i.result s row p).2.1 with
  | none => exact ⟨nofun, rfl⟩
  | some o =>
    rw [ho] at hc
    refine ⟨fun e he => ?_, ?_⟩
    · obtain rfl := List.mem_singleton.1 he
      cases hc <;> intro error h <;> cases h <;> rfl
    · cases hc <;> rfl

theorem tracks_sequence (s : Settings) (row : Option Row) (items : List (Item W)) :
    Tracks (Item.sequence s row items) := by
  have h : Tracks (Play.inOrder (items.map (Item.turn s row))) := by
    induction items with
    | nil => exact fun p => ⟨nofun, rfl⟩
    | cons i items ih =>
      rw [List.map_cons, Play.inOrder_cons]
      exact tracks_andThen (tracks_turn s row i) ih
  exact fun p => h { p with state := p.state.startSequence }

theorem hereditary_tracks : r.Hereditary (Tracks : Play W → Prop) where
  skip := fun _ => ⟨nofun, rfl⟩
  andThen := tracks_andThen
  ensuring := fun ha hb _ => tracks_ensuring ha hb
  report := fun _ he _ _ => tracks_report he
  pass := fun _ _ => tracks_sequence _ _ _
  storyHooks := fun _ => tracks_sequence _ _ _
  beforeStory := fun _ _ => tracks_report rfl
  afterStory := fun _ => tracks_report rfl
  request := fun _ _ => ⟨nofun, rfl⟩
  fail := fun _ _ => ⟨nofun, rfl⟩

theorem outstanding_performance (s : Story) (p : Progress W) :
    (r.performance s p).progress.state.outstanding = outstandingOf (r.performance s p).events := by
  have h := r.hereditary_tracks
  obtain ⟨hs, ho⟩ := h.story (h.givenStory [s.path]) s false { p with state := .initial }
  exact ho.trans (foldl_weigh_none hs)

end Runner

/-! ### The errors of given stories -/

/-- What a journal tells about given stories: the paths of the stories that are open, the innermost
first, and the errors of those asked for that were refused. -/
structure Requests where
  opened : List Text := []
  refused : List RunError := []

/-- A given story is refused if its path is open or not in the library. -/
def Requests.note (l : Library) (q : Requests) : Entry W → Requests
  | .reported (.beforeStory s _) => { q with opened := s.path :: q.opened }
  | .reported (.afterStory _) => { q with opened := q.opened.tail }
  | .requested path =>
    if q.opened.contains path then { q with refused := q.refused ++ [.recursive path] }
    else if l.get? path = none then
      { q with refused := q.refused ++ [.load (.notFound path)] }
    else q
  | _ => q

/-- The errors of the given stories that a journal shows to be refused, in their order. -/
def refusals (l : Library) (journal : List (Entry W)) : List RunError :=
  (journal.foldl (Requests.note l) {}).refused

/-- A journal that begins and ends with the same stories open, and refuses what ends it early. -/
def Balances (l : Library) (opened : List Text) (fatal : Option RunError)
    (journal : List (Entry W)) : Prop :=
  ∀ refused, journal.foldl (Requests.note l) ⟨opened, refused⟩ =
    ⟨opened, refused ++ fatal.toList⟩

variable {l : Library} {opened : List Text}

theorem Balances.append {f : Option RunError} {i j : List (Entry W)} (hi : Balances l opened none i)
    (hj : Balances l opened f j) : Balances l opened f (i ++ j) := by
  intro refused
  rw [List.foldl_append, hi, hj, Option.toList_none, List.append_nil]

theorem Balances.append_none {f : Option RunError} {i j : List (Entry W)}
    (hi : Balances l opened f i) (hj : Balances l opened none j) :
    Balances l opened f (i ++ j) := by
  intro refused
  rw [List.foldl_append, hi, hj, Option.toList_none, List.append_nil]

/-- Sequences ask for no given story. -/
theorem balances_of_isOfSequence {j : List (Entry W)} (h : ∀ x ∈ j, x.isOfSequence = true) :
    Balances l opened none j := by
  intro refused
  induction j with
  | nil => simp
  | cons x j ih =>
    have hx : Requests.note l ⟨opened, refused⟩ x = ⟨opened, refused⟩ := by
      have hx := h x List.mem_cons_self
      unfold Entry.isOfSequence at hx
      split at hx <;> first | rfl | exact absurd hx nofun
    rw [List.foldl_cons, hx]
    exact ih fun y hy => h y (List.mem_cons_of_mem _ hy)

namespace Runner

variable (r : Runner W)

theorem compositional_balances (l : Library) (opened : List Text) :
    r.Compositional fun a => a.Says (Balances l opened) where
  skip := Play.says_skip fun _ => by simp
  andThen := fun ha hb => by
    refine Play.says_andThen (ha.mono fun f i hi => ?_)
    cases f with
    | some e => exact hi
    | none => exact hb.mono fun g j hj => hi.append hj
  ensuring := fun ha hb hf => by
    refine Play.says_ensuring (ha.mono fun f i hi p => ?_)
    have hp := hb p
    rw [hf] at hp ⊢
    show Balances l opened (f.or none) _
    rw [Option.or_none]
    exact hi.append_none hp
  report := fun e _ hbefore hafter => by
    refine Play.says_report fun refused => ?_
    cases e with
    | beforeStory s embedded => exact absurd rfl (hbefore s embedded)
    | afterStory embedded => exact absurd rfl (hafter embedded)
    | _ => simp [Requests.note]
  pass := fun _ _ => by
    refine (Item.says_sequence_isOfSequence _ _ _).mono ?_
    rintro f j ⟨rfl, hj⟩
    exact balances_of_isOfSequence hj

/-- A story is open while its given stories are asked for, and no longer. -/
theorem balances_story {l : Library} {opened : List Text} {given : Text → Play W} {s : Story}
    (hg : ∀ path, (given path).Says (Balances l (s.path :: opened))) (embedded : Bool) :
    (r.story given s embedded).Says (Balances l opened) := by
  have h := r.compositional_balances l (s.path :: opened)
  have hooks : ∀ place, (r.storyHooks place).Says fun f j =>
      f = none ∧ Balances l (s.path :: opened) none j := by
    intro place
    refine (Item.says_sequence_isOfSequence _ _ _).mono ?_
    rintro f j ⟨hf, hj⟩
    exact ⟨hf, balances_of_isOfSequence hj⟩
  simp only [story, Play.inOrder_cons, Play.inOrder_nil, Play.andThen_skip]
  refine Play.says_report_andThen (Play.says_andThen_of_none (hooks _) fun i hi => ?_)
  refine Play.says_ensuring ((h.scenarios hg s.scenarios).mono fun f j hj => ?_)
  refine Play.says_andThen_of_none (hooks _) fun k hk => Play.says_report fun refused => ?_
  have hijk := (hi.append hj).append_none hk
  rw [List.foldl_cons, ← List.append_assoc, ← List.append_assoc, List.foldl_append,
    Requests.note, hijk refused, Option.or_none]
  rfl

theorem balances_givenStory (opened : List Text) (path : Text) :
    (r.givenStory opened path).Says (Balances r.settings.library opened) := by
  refine r.givenStory_induction
    (P := fun opened _ a => a.Says (Balances r.settings.library opened)) ?_ ?_ ?_ opened path
  · intro opened path ho
    refine Play.says_request_andThen (Play.says_fail fun refused => ?_)
    simp [Requests.note, ho]
  · intro opened path ho hl
    refine Play.says_request_andThen (Play.says_fail fun refused => ?_)
    simp [Requests.note, ho, hl]
  · intro opened path text ho hl hg
    have hs : (r.story (r.givenStory (path :: opened)) (r.read path text) true).Says
        (Balances r.settings.library opened) := r.balances_story hg true
    refine Play.says_request_andThen (hs.mono fun f j hj refused => ?_)
    have hn : Requests.note r.settings.library ⟨opened, refused⟩ (.requested path : Entry W) =
        ⟨opened, refused⟩ := by simp [Requests.note, ho, hl]
    rw [List.foldl_cons, hn, hj]

/-- A run refuses the given story that ends it, and no other. -/
theorem refusals_performance (s : Story) (p : Progress W) :
    refusals r.settings.library (r.performance s p).journal =
      (r.performance s p).fatal.toList := by
  have h : (r.story (r.givenStory [s.path]) s false).Says (Balances r.settings.library []) :=
    r.balances_story (r.balances_givenStory [s.path]) false
  exact congrArg Requests.refused (h { p with state := .initial } [])

end Runner

/-! ### The verdict -/

def Entry.consultation? : Entry W → Option (ActiveStrategy × Option StepError)
  | consulted active error => some (active, error)
  | _ => none

/-- The strategies that were asked, with the errors they were asked about. -/
def consultations (journal : List (Entry W)) : List (ActiveStrategy × Option StepError) :=
  journal.filterMap Entry.consultation?

@[simp] theorem consultations_append (i j : List (Entry W)) :
    consultations (i ++ j) = consultations i ++ consultations j := List.filterMap_append

/-- Sequences ask no strategy. -/
theorem consultations_eq_nil_of_isOfSequence {j : List (Entry W)}
    (h : ∀ x ∈ j, x.isOfSequence = true) : consultations j = [] := by
  refine List.filterMap_eq_nil_iff.2 fun x hx => ?_
  cases x with
  | consulted _ _ => exact absurd (h _ hx) nofun
  | _ => rfl

theorem refusals_append_consulted (l : Library) (j : List (Entry W)) (active : ActiveStrategy)
    (error : Option StepError) :
    refusals l (j ++ [.consulted active error]) = refusals l j := by
  rw [refusals, List.foldl_append]
  rfl

namespace Runner

variable (r : Runner W)

/-- No part of a run asks a strategy. -/
theorem hereditary_consultations :
    r.Hereditary fun a => a.Says fun _ j => consultations j = [] where
  skip := Play.says_skip rfl
  andThen := fun ha hb => by
    refine Play.says_andThen (ha.mono fun f i hi => ?_)
    cases f with
    | some e => exact hi
    | none => exact hb.mono fun g j hj => by rw [consultations_append, hi, hj]; rfl
  ensuring := fun ha hb _ => by
    refine Play.says_ensuring (ha.mono fun f i hi => hb.mono fun g j hj => ?_)
    rw [consultations_append, hi, hj]
    rfl
  report := fun _ _ _ _ => Play.says_report rfl
  pass := fun _ _ => (Item.says_sequence_isOfSequence _ _ _).mono fun _ _ hj =>
    consultations_eq_nil_of_isOfSequence hj.2
  storyHooks := fun _ => (Item.says_sequence_isOfSequence _ _ _).mono fun _ _ hj =>
    consultations_eq_nil_of_isOfSequence hj.2
  beforeStory := fun _ _ => Play.says_report rfl
  afterStory := fun _ => Play.says_report rfl
  request := fun _ _ => rfl
  fail := fun _ => Play.says_fail rfl

theorem consultations_performance (s : Story) (p : Progress W) :
    consultations (r.performance s p).journal = [] := by
  have h := r.hereditary_consultations
  exact h.story (h.givenStory [s.path]) s false { p with state := .initial }

/-- The outstanding error after a run is the one that its events make so. The first given story that
was refused is the error of the run, and no strategy is asked; if none was refused, the result is what
one strategy says about the outstanding error, the one for pending steps if that is what it is. -/
theorem verdict_run (s : Story) (p : Progress W) :
    let t := r.run s p
    let outstanding := outstandingOf t.events
    let active := if outstanding.any StepError.isPending then .onPending else .onError
    t.progress.state.outstanding = outstanding ∧
      match (refusals r.settings.library t.journal).head? with
      | some e => t.fatal = some e ∧ consultations t.journal = []
      | none =>
        consultations t.journal = [(active, outstanding)] ∧
          t.fatal = match r.settings.strategy active outstanding with
            | .ok () => none
            | .error e => some (.step e) := by
  intro t outstanding active
  have ho : (r.performance s p).progress.state.outstanding = outstanding := by
    rw [outstanding_performance, ← events_run]
  have hr := r.refusals_performance s p
  have hc := r.consultations_performance s p
  cases hf : (r.performance s p).fatal with
  | some e =>
    have ht : t = r.performance s p := r.run_of_some hf
    rw [ht, hr, hf]
    exact ⟨ho, rfl, hc⟩
  | none =>
    have ha : (r.performance s p).progress.state.activeStrategy = active := by
      rw [RunState.activeStrategy, ho]
    have ht := r.run_of_none hf
    rw [verdict, ha, ho] at ht
    have hj : t.journal = (r.performance s p).journal ++ [.consulted active outstanding] :=
      congrArg Trace.journal ht
    rw [hj, refusals_append_consulted, hr, hf, consultations_append, hc]
    refine ⟨?_, rfl, congrArg Trace.fatal ht⟩
    exact (congrArg (fun t => t.progress.state.outstanding) ht).trans ho

end Runner

end PlainStory
