import PlainStory.Proofs.Run.Calls
import PlainStory.Proofs.Run.Composition

/-!
# The journal of a story

`Runner.StoryJournal` is the layout of what is recorded of a story: its beginning, the calls of the
hooks before it, its scenarios, the calls of the hooks after it, and its end. Within its scenarios
(`Runner.InnerJournal`) each given story that is asked for is either refused, and nothing comes of
it, or leaves a journal of its own. Every story that is run has such a journal, however it ends.
-/

namespace PlainStory

variable {W : Type}

/-! ### Entries -/

/-- Whether hooks at a place are hooks of stories. -/
def HookPlace.isOfStory : HookPlace → Bool
  | beforeStory _ | afterStory _ => true
  | beforeScenario | afterScenario _ => false

/-- Whether an entry is one that scenarios leave, apart from the stories they ask for. -/
def Entry.isOfScenario : Entry W → Bool
  | reported (.beforeStory _ _) | reported (.afterStory _) | requested _ | consulted _ _ => false
  | hookCalled h => !h.place.isOfStory
  | reported _ | stepCalled _ _ => true

namespace Item

variable {s : Settings} {row : Option Row}

/-- A hook that is called in its turn is the item. -/
theorem eq_hook_of_mem_turn {i : Item W} {p : Progress W} {h : Hook W}
    (hx : .hookCalled h ∈ (i.turn s row p).journal) : i = .hook h := by
  rw [turn_eq, List.mem_append] at hx
  have hcalls : .hookCalled h ∈ (i.result s row p).1 := hx.resolve_right (by simp)
  have hperform : .hookCalled h ∈ (i.perform s row p.world).1 := by
    unfold result at hcalls
    split at hcalls
    · split at hcalls
      · exact hcalls
      · cases hcalls
    · cases hcalls
  cases i with
  | hook x =>
    rw [perform] at hperform
    split at hperform
    · cases hperform
    · have := List.mem_singleton.1 hperform
      cases this
      rfl
  | matched step m =>
    rw [perform] at hperform
    split at hperform
    · cases hperform
    · split at hperform <;> simp at hperform
  | pending step => cases hperform
  | comment step => cases hperform

theorem mem_of_hookCalled_mem_turns {items : List (Item W)} {p : Progress W} {h : Hook W}
    (hx : .hookCalled h ∈ (turns s row items p).journal) : .hook h ∈ items := by
  induction items generalizing p with
  | nil => cases hx
  | cons i items ih =>
    rw [turns_cons, List.mem_append] at hx
    rcases hx with hx | hx
    · exact List.mem_cons.2 (.inl (eq_hook_of_mem_turn hx).symm)
    · exact List.mem_cons_of_mem i (ih hx)

/-- In a dry run nothing is called. -/
theorem callsOf_turns_of_dryRun (hdry : s.dryRun = true) (items : List (Item W)) (p : Progress W) :
    callsOf (turns s row items p).journal = [] := by
  induction items generalizing p with
  | nil => rfl
  | cons i items ih =>
    have hi : (i.result s row p).1 = [] := by
      unfold result
      split
      · split
        · cases i <;> simp [perform, hdry]
        · rfl
      · rfl
    rw [turns_cons, callsOf_append, callsOf_turn, hi, ih, List.nil_append]

end Item

/-! ### The layout -/

namespace Runner

variable (r : Runner W)

/-- The hooks at a place, in the order in which they are called: registries in the order of their
lookup, and the hooks of one in the order of their declaration. -/
def hooksAt (place : HookPlace) : List (Hook W) := r.registries.flatMap (·.hooksAt place)

/-- The journal of the story hooks at a place: calls of all of them, and outcomes. -/
structure HookJournal (place : HookPlace) (journal : List (Entry W)) : Prop where
  calls : callsOf journal = if r.settings.dryRun then [] else (r.hooksAt place).map .hookCalled
  isOfSequence : ∀ x ∈ journal, x.isOfSequence = true

/-- What is recorded within a story, apart from its own hooks, while the stories with the paths
`opened` are open. -/
inductive InnerJournal : List Text → List (Entry W) → Prop where
  | nil {opened} : InnerJournal opened []
  | entry {opened x journal} (hx : x.isOfScenario = true) (rest : InnerJournal opened journal) :
    InnerJournal opened (x :: journal)
  | refused {opened path journal} (hr : path ∈ opened ∨ r.settings.library.get? path = none)
    (rest : InnerJournal opened journal) : InnerJournal opened (.requested path :: journal)
  | story {opened path text setUp body tearDown journal} (ho : path ∉ opened)
    (hl : r.settings.library.get? path = some text)
    (before : r.HookJournal (.beforeStory true) setUp)
    (inner : InnerJournal (path :: opened) body)
    (after : r.HookJournal (.afterStory true) tearDown) (rest : InnerJournal opened journal) :
    InnerJournal opened (.requested path :: .reported (.beforeStory (r.read path text) true) ::
      (setUp ++ body ++ tearDown ++ .reported (.afterStory true) :: journal))

/-- What is recorded of a story from its beginning to its end. -/
inductive StoryJournal (opened : List Text) (s : Story) (embedded : Bool) :
    List (Entry W) → Prop where
  | story {setUp body tearDown} (before : r.HookJournal (.beforeStory embedded) setUp)
    (inner : r.InnerJournal (s.path :: opened) body)
    (after : r.HookJournal (.afterStory embedded) tearDown) :
    StoryJournal opened s embedded (.reported (.beforeStory s embedded) ::
      (setUp ++ body ++ tearDown ++ [.reported (.afterStory embedded)]))

variable {r} {opened : List Text}

theorem InnerJournal.append {i j : List (Entry W)} (hi : r.InnerJournal opened i)
    (hj : r.InnerJournal opened j) : r.InnerJournal opened (i ++ j) := by
  induction hi with
  | nil => exact hj
  | entry hx _ ih => exact .entry hx (ih hj)
  | refused hr _ ih => exact .refused hr (ih hj)
  | story ho hl before inner after _ _ ih =>
    have := InnerJournal.story ho hl before inner after (ih hj)
    simpa using this

theorem innerJournal_of_isOfScenario {j : List (Entry W)} (h : ∀ x ∈ j, x.isOfScenario = true) :
    r.InnerJournal opened j := by
  induction j with
  | nil => exact .nil
  | cons x j ih =>
    exact .entry (h x List.mem_cons_self) (ih fun y hy => h y (List.mem_cons_of_mem x hy))

@[simp] theorem path_read (path text : Text) : (r.read path text).path = path := rfl

/-- A given story that is asked for and run leaves its journal behind the request. -/
theorem StoryJournal.innerJournal {path text : Text} {j : List (Entry W)} (ho : path ∉ opened)
    (hl : r.settings.library.get? path = some text)
    (h : r.StoryJournal opened (r.read path text) true j) :
    r.InnerJournal opened (.requested path :: j) := by
  obtain ⟨before, inner, after⟩ := h
  exact .story ho hl before inner after .nil

/-! ### The parts of a run have the layout -/

variable (r)

theorem says_storyHooks_hookJournal {place : HookPlace} (hp : place.upon = .any) :
    (r.storyHooks place).Says fun f j => f = none ∧ r.HookJournal place j := by
  intro p
  obtain ⟨hf, hseq⟩ := Item.says_sequence_isOfSequence r.settings none
    ((r.hooksAt place).map .hook) p
  refine ⟨hf, ?_, hseq⟩
  let p₀ : Progress W := { p with state := p.state.startSequence }
  have hj : (r.storyHooks place p).journal =
      (Item.turns r.settings none ((r.hooksAt place).map .hook) p₀).journal := rfl
  rw [hj]
  cases hdry : r.settings.dryRun with
  | true => exact Item.callsOf_turns_of_dryRun hdry _ p₀
  | false =>
    exact congrArg Prod.fst (Item.handling_turns_hooks hdry (fun _ => upon_of_mem_hooksAt hp) p₀)

/-- The hooks of a pass are no hooks of stories. -/
theorem isOfStory_of_mem_passItems {steps : List Text} {row : Option Row} {h : Hook W}
    (hh : .hook h ∈ r.passItems steps row) : h.place.isOfStory = false := by
  rw [passItems, List.mem_append, List.mem_append] at hh
  obtain (hh | hh) | hh := hh
  · obtain ⟨x, hx, hxh⟩ := List.mem_map.1 hh
    cases hxh
    obtain ⟨registry, -, hx⟩ := List.mem_flatMap.1 hx
    have hp : h.place = .beforeScenario := by simpa using (List.mem_filter.1 hx).2
    rw [hp]
    rfl
  · obtain ⟨raw, -, ho⟩ := List.mem_map.1 hh
    obtain ⟨-, hr⟩ | ⟨-, -, hr⟩ | ⟨-, m, -, hr⟩ :=
      Item.ofStep_cases r.settings.keywords r.registries row raw <;> cases hr.symm.trans ho
  · obtain ⟨x, hx, hxh⟩ := List.mem_map.1 hh
    cases hxh
    obtain ⟨registry, -, hx⟩ := List.mem_flatMap.1 hx
    have hp : h.place.isAfterScenario = true := (List.mem_filter.1 hx).2
    cases hplace : h.place with
    | afterScenario upon => rfl
    | _ => rw [hplace] at hp; cases hp

theorem says_pass_isOfScenario (steps : List Text) (row : Option Row) :
    (r.pass steps row).Says fun f j => f = none ∧ ∀ x ∈ j, x.isOfScenario = true := by
  intro p
  obtain ⟨hf, hseq⟩ := Item.says_sequence_isOfSequence r.settings row (r.passItems steps row) p
  refine ⟨hf, fun x hx => ?_⟩
  have hs := hseq x hx
  cases x with
  | reported e =>
    cases e with
    | outcome o => rfl
    | _ => exact absurd hs nofun
  | hookCalled h =>
    have hh : h.place.isOfStory = false :=
      r.isOfStory_of_mem_passItems (Item.mem_of_hookCalled_mem_turns hx)
    rw [Entry.isOfScenario, hh]
    rfl
  | stepCalled c context => rfl
  | requested path => exact absurd hs nofun
  | consulted active error => exact absurd hs nofun

theorem compositional_innerJournal (opened : List Text) :
    r.Compositional fun a => a.Says fun _ j => r.InnerJournal opened j where
  skip := Play.says_skip .nil
  andThen := fun ha hb => by
    refine Play.says_andThen (ha.mono fun f i hi => ?_)
    cases f with
    | some e => exact hi
    | none => exact hb.mono fun g j hj => hi.append hj
  ensuring := fun ha hb _ =>
    Play.says_ensuring (ha.mono fun f i hi => hb.mono fun g j hj => hi.append hj)
  report := fun e _ hbefore hafter => by
    refine Play.says_report (.entry ?_ .nil)
    cases e with
    | beforeStory s embedded => exact absurd rfl (hbefore s embedded)
    | afterStory embedded => exact absurd rfl (hafter embedded)
    | _ => rfl
  pass := fun steps row => (r.says_pass_isOfScenario steps row).mono fun _ _ hj =>
    innerJournal_of_isOfScenario hj.2

theorem says_story_storyJournal {opened : List Text} {given : Text → Play W} {s : Story}
    (hg : ∀ path, (given path).Says fun _ j => r.InnerJournal (s.path :: opened) j)
    (embedded : Bool) :
    (r.story given s embedded).Says fun _ j => r.StoryJournal opened s embedded j := by
  have h := r.compositional_innerJournal (s.path :: opened)
  simp only [story, Play.inOrder_cons, Play.inOrder_nil, Play.andThen_skip]
  refine Play.says_report_andThen
    (Play.says_andThen_of_none (r.says_storyHooks_hookJournal rfl) fun i hi => ?_)
  refine Play.says_ensuring ((h.scenarios hg s.scenarios).mono fun f j hj => ?_)
  refine Play.says_andThen_of_none (r.says_storyHooks_hookJournal rfl) fun k hk =>
    Play.says_report ?_
  rw [← List.append_assoc, ← List.append_assoc]
  exact .story hi hj hk

theorem says_givenStory_innerJournal (opened : List Text) (path : Text) :
    (r.givenStory opened path).Says fun _ j => r.InnerJournal opened j := by
  refine r.givenStory_induction
    (P := fun opened _ a => a.Says fun _ j => r.InnerJournal opened j) ?_ ?_ ?_ opened path
  · exact fun opened path ho => Play.says_request_andThen (Play.says_fail (.refused (.inl ho) .nil))
  · exact fun opened path _ hl =>
      Play.says_request_andThen (Play.says_fail (.refused (.inr hl) .nil))
  · intro opened path text ho hl hg
    exact Play.says_request_andThen ((r.says_story_storyJournal hg true).mono fun f j hj =>
      hj.innerJournal ho hl)

/-- What a run records of its story up to the verdict. -/
theorem storyJournal_performance (s : Story) (p : Progress W) :
    r.StoryJournal [] s false (r.performance s p).journal :=
  r.says_story_storyJournal (r.says_givenStory_innerJournal [s.path]) false
    { p with state := .initial }

end Runner

end PlainStory
