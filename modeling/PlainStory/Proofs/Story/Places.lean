import PlainStory.Proofs.Story.Bounds
import PlainStory.Proofs.Story.Breaks
import PlainStory.Proofs.Story.Layout

/-!
# Stories by places

A story read from its lines by number, as a list in memory is read: the ends of its parts are searched
for one by one, and then the lines from one place up to another are taken. No such place is out of
range, whatever the keywords and the text are, and what is read is the story. The places are found by
searches that do not know of one another, so the work is to see that each finds the end of the same
part; `Places.Parted` has the parts with what the searches find.
-/

namespace PlainStory

open Ranged

/-! ### Places of lines -/

/-- The places at which the lines of a story are parted, as the numbers of the lines behind them. -/
structure Places where
  descriptionEnd : Nat
  /-- The end of the narrative, which begins where the description ends. -/
  narrativeEnd? : Option Nat
  firstScenario? : Option Nat
  /-- For each line that opens a scenario the place of the line and the end of the scenario. -/
  blocks : List (Nat × Nat)

namespace Places

/-- The places from which scenarios are opened, of those given. -/
def scenarioStarts (openers : List (Option Opener)) : List Nat → Ranged (List Nat)
  | [] => return []
  | place :: places => do
    let opener ← element openers place
    let starts ← scenarioStarts openers places
    return if opener = some .scenario then place :: starts else starts

/-- Scenarios that start at given places, each of which goes on to the next start and the last one to
the end of the lines. -/
def blocksTo (stop : Nat) : List Nat → List (Nat × Nat)
  | [] => []
  | start :: starts => (start, starts.head?.getD stop) :: blocksTo stop starts

/-- The end of the narrative, if the line behind the description opens one. -/
def findNarrativeEnd? (openers : List (Option Opener)) (descriptionEnd : Nat)
    (firstScenario? : Option Nat) : Option Nat :=
  if openers[descriptionEnd]? = some (some .narrative) then
    some (firstScenario?.getD
      (placeFrom (·.any Opener.isWithinScenario) openers (descriptionEnd + 1)))
  else none

/-- The starts of all scenarios, which are searched for from the first one on. -/
def findStarts (openers : List (Option Opener)) : Option Nat → Ranged (List Nat)
  | none => return []
  | some first => scenarioStarts openers (List.range' first (openers.length - first))

/-- The places that are found by what each line opens. -/
def ofOpeners (openers : List (Option Opener)) : Ranged Places := do
  let descriptionEnd := placeFrom Option.isSome openers 0
  let firstScenario? := openers.findIdx? (· = some .scenario)
  let starts ← findStarts openers firstScenario?
  return {
    descriptionEnd
    narrativeEnd? := findNarrativeEnd? openers descriptionEnd firstScenario?
    firstScenario?
    blocks := blocksTo openers.length starts }

variable (p : Places) (k : Keywords) (lines : List Text)

/-- Where the lines begin that the scenarios are read from. -/
def bodyStart : Nat := p.narrativeEnd?.getD p.descriptionEnd

/-- All places between which lines are taken, in the order of the story, with the number of lines. -/
def upTo (stop : Nat) : List Nat :=
  p.descriptionEnd :: p.bodyStart :: p.firstScenario?.toList ++
    (p.blocks.flatMap fun block => [block.1, block.1 + 1, block.2]) ++ [stop]

/-- The narrative at the places. -/
def narrative : Ranged Narrative :=
  match p.narrativeEnd? with
  | none => return .empty
  | some stop => do
    let own ← slice lines p.descriptionEnd stop
    Narrative.atPlaces k (k.withoutKeyword .narrative (Text.joinLines own))

/-- The scenario that starts and ends at the given places. -/
def scenarioAt (block : Nat × Nat) : Ranged Scenario := do
  let line ← element lines block.1
  let own ← slice lines (block.1 + 1) block.2
  return .ofLines k (k.withoutKeyword .scenario line) own

def scenarios : Ranged (List Scenario) :=
  match p.firstScenario? with
  | some first => do
    -- These lines are in no part of the story, but they are looked at.
    let _ ← slice lines p.bodyStart (max first p.bodyStart)
    p.blocks.mapM (scenarioAt k lines)
  | none => do
    let body ← slice lines p.bodyStart lines.length
    return if body.all Text.blank then [] else [.ofLines k [] body]

/-- The story that the lines hold at the places. -/
def story (path? : Option Text) : Ranged Story := do
  let front ← slice lines 0 p.descriptionEnd
  let narrative ← p.narrative k lines
  let scenarios ← p.scenarios k lines
  return { path?, description := Text.trim (Text.joinLines front), narrative, scenarios }

end Places

/-! ### Lines of a narrative -/

namespace Narrative

/-- The lines behind the one that opens a narrative, parted: the narrative goes on to the first
scenario, or without one to the first part of a scenario. -/
theorem partLines_cases (k : Keywords) (later : List Text) :
    ∃ own body, partLines k later = (own, body) ∧ later = own ++ body ∧
      (∀ l ∈ own, k.opens .scenario l = false) ∧
      ((∃ line more, body = line :: more ∧ k.opens .scenario line = true) ∨
        (∀ l ∈ later, k.opens .scenario l = false) ∧
          (∀ l ∈ own, k.opensWithinScenario l = false) ∧
          ∀ l ∈ body.head?, k.opensWithinScenario l = true) := by
  cases hany : later.any (k.opens .scenario) with
  | true =>
    obtain ⟨own, line, more, rfl, hown, hline⟩ := exists_first (List.any_eq_true.1 hany)
    exact ⟨own, line :: more, partLines_append_scenario hown hline more, rfl, hown,
      .inl ⟨line, more, rfl, hline⟩⟩
  | false =>
    have hnone : ∀ l ∈ later, k.opens .scenario l = false := by simpa using hany
    obtain ⟨own, body, rfl, hown, hbody⟩ := Text.exists_run (fun l => !k.opensWithinScenario l) later
    have hspan := Text.span_append_eq hown hbody
    simp only [Bool.not_eq_true', Bool.not_eq_false'] at hown hbody
    refine ⟨own, body, ?_, rfl, fun l hl => hnone l (List.mem_append_left body hl),
      .inr ⟨hnone, hown, hbody⟩⟩
    rw [partLines, hany, if_neg Bool.false_ne_true, hspan]

end Narrative

/-! ### Scenarios at their places -/

namespace Scenario

/-- The places of parts one after another, the first one at a given place: where each begins and where
it ends. -/
def extents (start : Nat) : List (Text × List Text) → List (Nat × Nat)
  | [] => []
  | part :: parts => (start, start + 1 + part.2.length) :: extents (start + 1 + part.2.length) parts

end Scenario

namespace Places

open Scenario

variable {k : Keywords}

/-- The scenarios that are found line by line are the blocks of lines. -/
theorem exists_scenarioStarts (pre : List (Option Opener)) (lines : List Text) :
    ∃ starts, scenarioStarts (pre ++ lines.map k.opener?) (List.range' pre.length lines.length) =
        .ok starts ∧
      starts.head?.getD (pre.length + lines.length) =
        pre.length + (blocksAt (k.opens .scenario) lines).1.length ∧
      blocksTo (pre.length + lines.length) starts =
        extents (pre.length + (blocksAt (k.opens .scenario) lines).1.length)
          (blocksAt (k.opens .scenario) lines).2 := by
  induction lines generalizing pre with
  | nil => exact ⟨[], rfl, rfl, rfl⟩
  | cons line lines ih =>
    obtain ⟨starts, hstarts, hhead, hblocks⟩ := ih (pre ++ [k.opener? line])
    have helement : element (pre ++ (line :: lines).map k.opener?) pre.length = .ok (k.opener? line) :=
      element_eq rfl
    have hlist : pre ++ [k.opener? line] ++ lines.map k.opener? = pre ++ (line :: lines).map k.opener? := by
      simp
    have hlength : (pre ++ [k.opener? line]).length = pre.length + 1 := by simp
    have hstop : pre.length + 1 + lines.length = pre.length + (line :: lines).length := by
      rw [List.length_cons]; omega
    rw [hlist, hlength] at hstarts
    rw [hlength, hstop] at hhead hblocks
    simp only [List.length_cons, List.range'_succ, scenarioStarts, helement, hstarts, ok_bind,
      pure_eq_ok, blocksAt]
    rw [List.length_cons] at hhead hblocks
    cases hline : k.opens .scenario line with
    | true =>
      have ho : k.opener? line = some .scenario := of_decide_eq_true hline
      refine ⟨_, by rw [if_pos ho], rfl, ?_⟩
      simp only [if_true, blocksTo, extents, hhead, hblocks, List.length_nil, Nat.add_zero]
    | false =>
      have ho : ¬ k.opener? line = some .scenario := of_decide_eq_false hline
      have hplace : ∀ n, pre.length + 1 + n = pre.length + (n + 1) := fun n => by omega
      rw [hplace] at hhead hblocks
      refine ⟨_, by rw [if_neg ho], ?_, ?_⟩
      · simp only [hhead, Bool.false_eq_true, if_false, List.length_cons]
      · simp only [hblocks, Bool.false_eq_true, if_false, List.length_cons]

/-- At the places of the blocks of some lines the scenarios of the blocks are read. -/
theorem mapM_scenarioAt {lines pre : List Text} {blocks : List (Text × List Text)}
    (hlines : lines = pre ++ blocks.flatMap linesOf) :
    (extents pre.length blocks).mapM (scenarioAt k lines) =
      .ok (blocks.map fun block => ofLines k (k.withoutKeyword .scenario block.1) block.2) := by
  induction blocks generalizing pre with
  | nil => rfl
  | cons block blocks ih =>
    obtain ⟨line, own⟩ := block
    have hline : element lines pre.length = .ok line := element_eq hlines
    have hown : slice lines (pre.length + 1) (pre.length + 1 + own.length) = .ok own :=
      slice_eq_ok_iff.2 ⟨pre ++ [line], blocks.flatMap linesOf, by simp [hlines, linesOf], by simp, rfl⟩
    have hblock : scenarioAt k lines (pre.length, pre.length + 1 + own.length) =
        .ok (ofLines k (k.withoutKeyword .scenario line) own) := by
      simp only [scenarioAt, hline, hown, ok_bind, pure_eq_ok]
    have hlength : (pre ++ line :: own).length = pre.length + 1 + own.length := by
      rw [List.length_append, List.length_cons]; omega
    have hafter : lines = (pre ++ line :: own) ++ blocks.flatMap linesOf := by
      simp [hlines, linesOf]
    have hrest := ih hafter
    rw [hlength] at hrest
    rw [extents, List.mapM_cons, hblock, ok_bind, hrest, ok_bind, pure_eq_ok, List.map_cons]

/-- The places of parts one after another are in order up to the end of the parts. -/
theorem pairwise_extents (start : Nat) (parts : List (Text × List Text)) :
    (start :: ((extents start parts).flatMap fun block => [block.1, block.1 + 1, block.2]) ++
      [start + (parts.flatMap linesOf).length]).Pairwise (· ≤ ·) := by
  induction parts generalizing start with
  | nil => simp [extents]
  | cons part parts ih =>
    have hstop : start + ((part :: parts).flatMap linesOf).length =
        start + 1 + part.2.length + (parts.flatMap linesOf).length := by
      rw [List.flatMap_cons, List.length_append, linesOf, List.length_cons]; omega
    rw [hstop, extents, List.flatMap_cons]
    simp only [List.cons_append, List.nil_append, List.pairwise_cons_cons_iff_of_trans]
    exact ⟨le_refl _, Nat.le_succ _, Nat.le_add_right _ _, ih (start + 1 + part.2.length)⟩

/-! ### The parts of a story -/

theorem findScenario?_eq_none {lines : List Text} (h : ∀ l ∈ lines, k.opens .scenario l = false) :
    (lines.map k.opener?).findIdx? (· = some .scenario) = none := by
  rw [List.findIdx?_map]
  exact List.findIdx?_eq_none_iff.2 h

theorem findScenario?_eq_some {pre : List Text} (hpre : ∀ l ∈ pre, k.opens .scenario l = false)
    {line : Text} (hline : k.opens .scenario line = true) (more : List Text) :
    ((pre ++ line :: more).map k.opener?).findIdx? (· = some .scenario) = some pre.length := by
  have hhead : (line :: more).findIdx? (k.opens .scenario) = some 0 := findIdx?_of_head hline more
  have hall := findIdx?_append_of_not hpre (line :: more)
  rw [hhead, Option.map_some, Nat.zero_add] at hall
  rw [List.findIdx?_map]
  exact hall

/-- The lines of a story, parted into those of the description, those that a narrative is read from and
those from which the scenarios are read, together with the end of the narrative that is found. -/
structure Parted (k : Keywords) (lines : List Text) where
  front : List Text
  own : List Text
  body : List Text
  narrativeEnd? : Option Nat
  eq_lines : front ++ (own ++ body) = lines
  front_plain : ∀ l ∈ front, k.opener? l = none
  opens : ∀ l ∈ (own ++ body).head?, k.opener? l ≠ none
  own_plain : ∀ l ∈ own, k.opens .scenario l = false
  body_opens : (∀ l ∈ body, k.opens .scenario l = false) →
    ∀ l ∈ body.head?, k.opensWithinScenario l = true
  found : findNarrativeEnd? (lines.map k.opener?) front.length
    ((lines.map k.opener?).findIdx? (· = some .scenario)) = narrativeEnd?
  read : narrativeEnd? = none ∧ own = [] ∧ Narrative.ofLines k (own ++ body) = (.empty, body) ∨
    narrativeEnd? = some (front ++ own).length ∧ Narrative.ofLines k (own ++ body) =
      (.ofText k (k.withoutKeyword .narrative (Text.joinLines own)), body)

theorem opens_eq_false_of_opener?_eq_none {line : Text} (h : k.opener? line = none) (o : Opener) :
    k.opens o line = false := by
  simp [Keywords.opens, h]

/-- Where the first line behind the description opens no narrative, there is none. -/
theorem exists_parted_of_not_narrative {front rest : List Text}
    (hfront : ∀ l ∈ front, k.opener? l = none) (hrest : ∀ l ∈ rest.head?, k.opener? l ≠ none)
    (hhead : rest.head?.map k.opener? ≠ some (some .narrative)) :
    Nonempty (Parted k (front ++ rest)) := by
  have hget : ((front ++ rest).map k.opener?)[front.length]? = rest.head?.map k.opener? := by
    rw [List.getElem?_map, List.getElem?_append_right (le_refl _), Nat.sub_self,
      List.head?_eq_getElem?]
  have hread : Narrative.ofLines k rest = (.empty, rest) := by
    cases rest with
    | nil => rfl
    | cons line later => exact Narrative.ofLines_of_not_opens (by simpa using hhead) later
  refine ⟨front, [], rest, none, rfl, hfront, hrest, List.forall_mem_nil _, ?_, ?_,
    .inl ⟨rfl, rfl, hread⟩⟩
  · intro hnone l hl
    have hscenario : k.opener? l ≠ some .scenario :=
      of_decide_eq_false (hnone l (List.mem_of_mem_head? hl))
    have hnarrative : k.opener? l ≠ some .narrative := by
      rw [Option.mem_def.1 hl] at hhead
      simpa using hhead
    obtain ⟨o, ho⟩ := Option.ne_none_iff_exists'.1 (hrest l hl)
    rw [Keywords.opensWithinScenario, ho]
    rw [ho] at hscenario hnarrative
    cases o with
    | scenario => exact absurd rfl hscenario
    | narrative => exact absurd rfl hnarrative
    | givenStories => rfl
    | examples => rfl
    | step => rfl
  · rw [findNarrativeEnd?, hget, if_neg hhead]

/-- A narrative ends at the place that is found by what the lines behind its first one open. -/
theorem exists_parted_of_narrative {front : List Text} {line : Text}
    (hfront : ∀ l ∈ front, k.opener? l = none) (hline : k.opener? line = some .narrative)
    (later : List Text) : Nonempty (Parted k (front ++ line :: later)) := by
  obtain ⟨own, body, hpart, rfl, hown, hcases⟩ := Narrative.partLines_cases k later
  have hopens : k.opens .scenario line = false := by simp [Keywords.opens, hline]
  have hall : ∀ l ∈ line :: own, k.opens .scenario l = false := List.forall_mem_cons.2 ⟨hopens, hown⟩
  have hpre : ∀ l ∈ front ++ line :: own, k.opens .scenario l = false :=
    List.forall_mem_append.2 ⟨fun l hl => opens_eq_false_of_opener?_eq_none (hfront l hl) _, hall⟩
  have hget : ((front ++ line :: (own ++ body)).map k.opener?)[front.length]? =
      some (some .narrative) := by
    simp [hline]
  have hlines : front ++ line :: (own ++ body) = front ++ line :: own ++ body := by simp
  refine ⟨front, line :: own, body, some (front ++ line :: own).length, rfl, hfront, by simp [hline],
    hall, fun hnone l hl => ?_, ?_, .inr ⟨rfl, ?_⟩⟩
  · rcases hcases with ⟨first, more, rfl, hfirst⟩ | ⟨-, -, hbody⟩
    · rw [hnone first List.mem_cons_self] at hfirst
      cases hfirst
    · exact hbody l hl
  · rw [findNarrativeEnd?, hget, if_pos rfl]
    congr 1
    rcases hcases with ⟨first, more, rfl, hfirst⟩ | ⟨hnone, hwithin, hbody⟩
    · rw [hlines, findScenario?_eq_some hpre hfirst more, Option.getD_some]
    · have hnone' : ∀ l ∈ front ++ line :: own ++ body, k.opens .scenario l = false :=
        List.forall_mem_append.2 ⟨hpre, fun l hl => hnone l (List.mem_append_right own hl)⟩
      have hplace : placeFrom k.opensWithinScenario (front ++ line :: (own ++ body))
          (front ++ [line]).length = (front ++ [line] ++ own).length :=
        placeFrom_eq (by simp) hwithin hbody
      have hbehind : (front ++ [line]).length = front.length + 1 := by simp
      rw [hbehind] at hplace
      rw [hlines, findScenario?_eq_none hnone', Option.getD_none, ← hlines, placeFrom_map]
      exact hplace.trans (by simp)
  · rw [List.cons_append, Narrative.ofLines_of_opens hline, hpart]

theorem exists_parted (k : Keywords) (lines : List Text) : Nonempty (Parted k lines) := by
  obtain ⟨front, rest, rfl, hfront, hrest⟩ := Text.exists_run (fun l => (k.opener? l).isNone) lines
  have hplain : ∀ l ∈ front, k.opener? l = none := by simpa using hfront
  have hopens : ∀ l ∈ rest.head?, k.opener? l ≠ none := by
    simpa [Option.isSome_iff_ne_none] using hrest
  by_cases hhead : rest.head?.map k.opener? = some (some .narrative)
  · obtain ⟨line, hline, hnarrative⟩ := Option.map_eq_some_iff.1 hhead
    obtain ⟨later, rfl⟩ := List.head?_eq_some_iff.1 hline
    exact exists_parted_of_narrative hplain hnarrative later
  · exact exists_parted_of_not_narrative hplain hopens hhead

namespace Parted

variable {lines : List Text} (c : Parted k lines)

theorem lines_eq : c.front ++ c.own ++ c.body = lines := by
  rw [List.append_assoc, c.eq_lines]

/-- The lines in front of those from which the scenarios are read open none. -/
theorem pre_plain : ∀ l ∈ c.front ++ c.own, k.opens .scenario l = false :=
  List.forall_mem_append.2
    ⟨fun l hl => opens_eq_false_of_opener?_eq_none (c.front_plain l hl) _, c.own_plain⟩

/-- The narrative ends where the lines begin that the scenarios are read from. -/
theorem getD_narrativeEnd? : c.narrativeEnd?.getD c.front.length = (c.front ++ c.own).length := by
  rcases c.read with ⟨hend, hown, -⟩ | ⟨hend, -⟩
  · rw [hend, hown, Option.getD_none, List.append_nil]
  · rw [hend, Option.getD_some]

theorem findDescriptionEnd : placeFrom Option.isSome (lines.map k.opener?) 0 = c.front.length := by
  have hlines : lines = [] ++ c.front ++ (c.own ++ c.body) := c.eq_lines.symm
  rw [placeFrom_map]
  exact placeFrom_eq hlines (by simpa using c.front_plain)
    (by simpa [Option.isSome_iff_ne_none] using c.opens)

theorem story_eq (path? : Option Text) : Story.ofLines k lines path? =
    { path?
      description := Text.trim (Text.joinLines c.front)
      narrative := (Narrative.ofLines k (c.own ++ c.body)).1
      scenarios := listOfLines k c.body } := by
  have hbody : (Narrative.ofLines k (c.own ++ c.body)).2 = c.body := by
    rcases c.read with ⟨-, -, hread⟩ | ⟨-, hread⟩ <;> rw [hread]
  have hstory := Story.ofLines_append c.front_plain c.opens path?
  rwa [c.eq_lines, hbody] at hstory

/-- At the end that is found the narrative is read. -/
theorem narrative_eq {p : Places} (hdescription : p.descriptionEnd = c.front.length)
    (hend : p.narrativeEnd? = c.narrativeEnd?) :
    p.narrative k lines = .ok (Narrative.ofLines k (c.own ++ c.body)).1 := by
  rcases c.read with ⟨hnone, -, hread⟩ | ⟨hsome, hread⟩
  · rw [narrative, hend, hnone, hread]
    rfl
  · have hslice : slice lines c.front.length (c.front ++ c.own).length = .ok c.own :=
      slice_eq_ok_iff.2 ⟨c.front, c.body, c.lines_eq.symm, rfl, List.length_append⟩
    rw [narrative, hend, hsome, hread]
    simp only [hdescription, hslice, ok_bind, Narrative.atPlaces_eq]

end Parted

/-- The scenarios are found behind the lines that open none: the first one, and where each begins and
ends. -/
theorem exists_blocks {pre body : List Text} (hpre : ∀ l ∈ pre, k.opens .scenario l = false)
    (hsome : ∃ l ∈ body, k.opens .scenario l = true) :
    ∃ stray blocks starts, body = stray ++ blocks.flatMap linesOf ∧
      ((pre ++ body).map k.opener?).findIdx? (· = some .scenario) = some (pre ++ stray).length ∧
      findStarts ((pre ++ body).map k.opener?) (some (pre ++ stray).length) = .ok starts ∧
      blocksTo (pre ++ body).length starts = extents (pre ++ stray).length blocks ∧
      listOfLines k body =
        blocks.map fun block => ofLines k (k.withoutKeyword .scenario block.1) block.2 := by
  obtain ⟨stray, line, more, rfl, hstray, hline⟩ := exists_first hsome
  let blocks := (blocksAt (k.opens .scenario) (line :: more)).2
  have hfront : (blocksAt (k.opens .scenario) (line :: more)).1 = [] := by
    simp only [blocksAt, hline, if_true]
  have hflat : blocks.flatMap linesOf = line :: more := by
    have hall := flatten_blocksAt (k.opens .scenario) (line :: more)
    rwa [hfront, List.nil_append] at hall
  obtain ⟨starts, hstarts, -, hblocks⟩ :=
    exists_scenarioStarts (k := k) ((pre ++ stray).map k.opener?) (line :: more)
  rw [List.length_map, ← List.map_append] at hstarts
  rw [List.length_map, hfront, ← List.length_append] at hblocks
  have hlength : (pre ++ (stray ++ line :: more)).length - (pre ++ stray).length =
      (line :: more).length := by
    simp only [List.length_append]; omega
  refine ⟨stray, blocks, starts, by rw [hflat], ?_, ?_, ?_, ?_⟩
  · rw [← List.append_assoc]
    exact findScenario?_eq_some (List.forall_mem_append.2 ⟨hpre, hstray⟩) hline more
  · rw [findStarts, List.length_map, hlength, ← List.append_assoc, hstarts]
  · rw [← List.append_assoc, hblocks, List.length_nil, Nat.add_zero]
  · rw [listOfLines_append hstray hline, ofBlocks]

/-- Behind lines that open none, the scenarios are found and read. -/
theorem exists_scenarios {pre : List Text} (hpre : ∀ l ∈ pre, k.opens .scenario l = false)
    (body : List Text) :
    ∃ first? starts, ((pre ++ body).map k.opener?).findIdx? (· = some .scenario) = first? ∧
      findStarts ((pre ++ body).map k.opener?) first? = .ok starts ∧
      (pre.length :: first?.toList ++ ((blocksTo (pre ++ body).length starts).flatMap fun block =>
        [block.1, block.1 + 1, block.2]) ++ [(pre ++ body).length]).Pairwise (· ≤ ·) ∧
      ∀ p : Places, p.bodyStart = pre.length → p.firstScenario? = first? →
        p.blocks = blocksTo (pre ++ body).length starts →
          p.scenarios k (pre ++ body) = .ok (listOfLines k body) := by
  by_cases hsome : ∃ l ∈ body, k.opens .scenario l = true
  · obtain ⟨stray, blocks, starts, hbody, hfirst, hstarts, hblocks, hread⟩ := exists_blocks hpre hsome
    refine ⟨some (pre ++ stray).length, starts, hfirst, hstarts, ?_, fun p hp hp₁ hp₂ => ?_⟩
    · have hstop : (pre ++ body).length =
          (pre ++ stray).length + (blocks.flatMap linesOf).length := by
        rw [hbody, ← List.append_assoc, List.length_append]
      have hle : pre.length ≤ (pre ++ stray).length := by rw [List.length_append]; omega
      have hblocksOrdered := pairwise_extents (pre ++ stray).length blocks
      rw [hblocks, hstop]
      simp only [Option.toList_some, List.cons_append, List.nil_append] at hblocksOrdered ⊢
      exact List.pairwise_cons_cons_iff_of_trans.2 ⟨hle, hblocksOrdered⟩
    · have hmax : max (pre ++ stray).length pre.length = (pre ++ stray).length := by
        rw [List.length_append]; omega
      have hstray : slice (pre ++ body) pre.length (pre ++ stray).length = .ok stray :=
        slice_eq_ok_iff.2 ⟨pre, blocks.flatMap linesOf, by rw [hbody, List.append_assoc], rfl,
          List.length_append⟩
      rw [scenarios, hp₁]
      simp only [hp, hmax, hstray, ok_bind, hp₂, hblocks, hread]
      exact mapM_scenarioAt (by rw [hbody, List.append_assoc])
  · have hplain : ∀ l ∈ body, k.opens .scenario l = false := by simpa using hsome
    have hfirst := findScenario?_eq_none (k := k) (List.forall_mem_append.2 ⟨hpre, hplain⟩)
    refine ⟨none, [], hfirst, rfl, ?_, fun p hp hp₁ _ => ?_⟩
    · simp [blocksTo]
    · have hslice : slice (pre ++ body) pre.length (pre ++ body).length = .ok body :=
        slice_eq_ok_iff.2 ⟨pre, [], by rw [List.append_nil], rfl, List.length_append⟩
      rw [scenarios, hp₁, listOfLines_eq, if_pos (ofBlocks_eq_nil_iff.2 hplain)]
      simp only [hp, hslice, ok_bind, pure_eq_ok]

variable (k) in
/-- A story is read at places that are found, in order and within the lines. -/
theorem exists_places (lines : List Text) (path? : Option Text) :
    ∃ places, ofOpeners (lines.map k.opener?) = .ok places ∧
      (places.upTo lines.length).Pairwise (· ≤ ·) ∧
      places.story k lines path? = .ok (Story.ofLines k lines path?) := by
  obtain ⟨c⟩ := exists_parted k lines
  obtain ⟨first?, starts, hfirst, hstarts, hordered, hscenarios⟩ :=
    exists_scenarios c.pre_plain c.body
  rw [c.lines_eq] at hfirst hstarts hordered hscenarios
  have hfound := c.found
  rw [hfirst] at hfound
  let p : Places := {
    descriptionEnd := c.front.length
    narrativeEnd? := c.narrativeEnd?
    firstScenario? := first?
    blocks := blocksTo lines.length starts }
  have hbody : p.bodyStart = (c.front ++ c.own).length := c.getD_narrativeEnd?
  have hslice : slice lines 0 c.front.length = .ok c.front :=
    slice_eq_ok_iff.2 ⟨[], c.own ++ c.body, c.eq_lines.symm, rfl, (Nat.zero_add _).symm⟩
  have hnarrative : p.narrative k lines = .ok (Narrative.ofLines k (c.own ++ c.body)).1 :=
    c.narrative_eq rfl rfl
  refine ⟨p, ?_, ?_, ?_⟩
  · simp only [ofOpeners, c.findDescriptionEnd, hfirst, hstarts, ok_bind, pure_eq_ok, hfound,
      List.length_map, p]
  · rw [upTo, hbody]
    simp only [List.cons_append, List.pairwise_cons_cons_iff_of_trans]
    exact ⟨by simp [p], hordered⟩
  · rw [story, hslice, ok_bind, hnarrative, ok_bind, hscenarios p hbody rfl rfl, ok_bind, pure_eq_ok,
      c.story_eq]

/-- A description, a narrative of two lines and two scenarios, the first one with a step. -/
example :
    ofOpeners [none, some .narrative, none, some .scenario, some .step, some .scenario] =
      .ok ⟨1, some 3, some 3, [(3, 5), (5, 6)]⟩ := rfl

end Places

/-! ### How many scenarios there are -/

namespace Scenario

variable {k : Keywords}

/-- There is a block for each line at which one starts. -/
theorem length_blocksAt (p : Text → Bool) (lines : List Text) :
    (blocksAt p lines).2.length = lines.countP p := by
  induction lines with
  | nil => rfl
  | cons line lines ih =>
    rw [List.countP_cons, ← ih]
    cases hline : p line <;> simp [blocksAt, hline]

/-- A scenario without a line that opens it has no title if its first line opens a part of it. -/
theorem title_ofLines_nil {lines : List Text} (h : ∀ l ∈ lines.head?, k.opensWithinScenario l = true) :
    (ofLines k [] lines).title = [] := by
  obtain ⟨b⟩ := exists_layout k lines
  have htitle : b.title = [] := by
    rcases htitle : b.title with _ | ⟨line, more⟩
    · rfl
    · have hmem : line ∈ lines.head? := by rw [← b.eq_lines, htitle]; rfl
      have hplain := b.title_plain line (by rw [htitle]; exact List.mem_cons_self)
      rw [h line hmem] at hplain
      cases hplain
  rw [b.ofLines_eq, Layout.scenario, htitle]
  rfl

/-- There is a scenario for each line that opens one, and without such a line at most one, which then
has no title. -/
theorem length_listOfLines {lines : List Text} (h : (∀ l ∈ lines, k.opens .scenario l = false) →
      ∀ l ∈ lines.head?, k.opensWithinScenario l = true) :
    (0 < lines.countP (k.opens .scenario) →
        (listOfLines k lines).length = lines.countP (k.opens .scenario)) ∧
      (lines.countP (k.opens .scenario) = 0 →
        (listOfLines k lines).length ≤ 1 ∧ ∀ s ∈ listOfLines k lines, s.title = []) := by
  have hlength : (ofBlocks k lines).length = lines.countP (k.opens .scenario) := by
    rw [ofBlocks, List.length_map, length_blocksAt]
  rw [listOfLines_eq]
  refine ⟨fun hpos => ?_, fun hzero => ?_⟩
  · have hne : ofBlocks k lines ≠ [] := List.length_pos_iff.1 (hlength ▸ hpos)
    rw [if_neg hne, hlength]
  · have hnil : ofBlocks k lines = [] := List.length_eq_zero_iff.1 (hlength.trans hzero)
    have htitle := title_ofLines_nil (h (ofBlocks_eq_nil_iff.1 hnil))
    rw [if_pos hnil]
    split
    · exact ⟨Nat.zero_le _, List.forall_mem_nil _⟩
    · exact ⟨le_refl _, by simpa using htitle⟩

end Scenario

namespace Story

theorem length_scenarios_ofLines (k : Keywords) (lines : List Text) (path? : Option Text) :
    (0 < lines.countP (k.opens .scenario) →
        (ofLines k lines path?).scenarios.length = lines.countP (k.opens .scenario)) ∧
      (lines.countP (k.opens .scenario) = 0 →
        (ofLines k lines path?).scenarios.length ≤ 1 ∧
          ∀ s ∈ (ofLines k lines path?).scenarios, s.title = []) := by
  obtain ⟨c⟩ := Places.exists_parted k lines
  have hpre : (c.front ++ c.own).countP (k.opens .scenario) = 0 :=
    List.countP_eq_zero.2 (by simpa using c.pre_plain)
  have hcount : lines.countP (k.opens .scenario) = c.body.countP (k.opens .scenario) := by
    have hall := congrArg (List.countP (k.opens .scenario)) c.lines_eq
    rw [List.countP_append, hpre, Nat.zero_add] at hall
    exact hall.symm
  rw [c.story_eq, hcount]
  exact Scenario.length_listOfLines c.body_opens

/-- Every text is read at places that are in order and within its lines, and what is read at them is
its story; the words of a narrative are found at places that are in order and within the text. There
are as many scenarios as lines that open one, and without such a line at most one, with no title. -/
theorem ofText_inRange (k : Keywords) (text : Text) (path? : Option Text) :
    (∃ places, Places.ofOpeners ((Text.lines text).map k.opener?) = .ok places ∧
        (places.upTo (Text.lines text).length).Pairwise (· ≤ ·) ∧
        places.story k (Text.lines text) path? = .ok (ofText k text path?)) ∧
      (∀ (words : List Text) (narrative : Text),
        ∃ bounds?, Narrative.boundsFrom narrative 0 words = .ok bounds? ∧
          ∀ bounds ∈ bounds?,
            (Narrative.bytesOf bounds ++ [Text.size narrative]).Pairwise (· ≤ ·)) ∧
      (0 < (Text.lines text).countP (k.opens .scenario) →
        (ofText k text path?).scenarios.length = (Text.lines text).countP (k.opens .scenario)) ∧
      ((Text.lines text).countP (k.opens .scenario) = 0 →
        (ofText k text path?).scenarios.length ≤ 1 ∧
          ∀ s ∈ (ofText k text path?).scenarios, s.title = []) := by
  refine ⟨Places.exists_places k (Text.lines text) path?, fun words narrative => ?_,
    length_scenarios_ofLines k (Text.lines text) path?⟩
  obtain ⟨bounds?, hbounds?, hordered⟩ :=
    Narrative.exists_boundsFrom words (List.nil_append narrative).symm
  exact ⟨bounds?, hbounds?, fun bounds hbounds => (hordered bounds hbounds).of_cons⟩

end Story

end PlainStory
