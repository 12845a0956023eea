import Mathlib.Data.List.Forall2
import Mathlib.Data.List.Induction
import Mathlib.Data.List.Nodup
import PlainStory.Proofs.Pattern.Cut
import PlainStory.Step.Registry

/-!
# Building a registry

The variants of all definitions are taken in order, and each is compared with those before it. The
main statement is that a registry comes of definitions whose variants can all be read exactly if no
two variants of one type are the same, that it then has one candidate for each variant, in their
order, and that otherwise the first variant that repeats an earlier one is what is wrong.
-/

namespace PlainStory

/-! ### Repetitions -/

section Marks

variable {α κ : Type} [BEq κ] [Hashable κ] [LawfulBEq κ] {key : α → κ}

/-- Whether an element repeats an earlier one does not depend on the elements behind it. -/
theorem markRepeated_isPrefix (key : α → κ) (xs ys : List α) :
    markRepeated key xs <+: markRepeated key (xs ++ ys) := by
  induction ys using List.reverseRecOn with
  | nil => simp
  | append_singleton ys y ih =>
    rw [← List.append_assoc, markRepeated_concat]
    exact ih.trans (List.prefix_append _ _)

theorem markRepeated_of_nodup {xs : List α} (h : (xs.map key).Nodup) :
    markRepeated key xs = xs.map fun x => (x, false) := by
  induction xs using List.reverseRecOn with
  | nil => rfl
  | append_singleton xs x ih =>
    rw [List.map_append, List.map_singleton, List.nodup_append] at h
    obtain ⟨hxs, -, hx⟩ := h
    have hnew : key x ∉ xs.map key := fun hmem => hx _ hmem _ (List.mem_singleton.2 rfl) rfl
    have hcontains : (xs.map key).contains (key x) = false := by simpa using hnew
    rw [markRepeated_concat, ih hxs, hcontains, List.map_append]
    rfl

/-- Up to the first element that repeats an earlier one, nothing is marked. -/
theorem exists_markRepeated_eq {earlier : List α} {x : α} (h : (earlier.map key).Nodup)
    (hx : key x ∈ earlier.map key) (later : List α) : ∃ rest,
      markRepeated key (earlier ++ x :: later) =
        (earlier.map fun y => (y, false)) ++ (x, true) :: rest := by
  obtain ⟨rest, hrest⟩ := markRepeated_isPrefix key (earlier ++ [x]) later
  refine ⟨rest, ?_⟩
  rw [List.append_cons, ← hrest, markRepeated_concat, markRepeated_of_nodup h,
    List.contains_iff_mem.2 hx, List.append_assoc]
  rfl

end Marks

/-- A list with repetitions has a first element that repeats an earlier one. -/
theorem exists_first_repeated {κ : Type} {xs : List κ} (h : ¬ xs.Nodup) :
    ∃ earlier x later, xs = earlier ++ x :: later ∧ earlier.Nodup ∧ x ∈ earlier := by
  induction xs using List.reverseRecOn with
  | nil => exact absurd List.nodup_nil h
  | append_singleton xs x ih =>
    by_cases hxs : xs.Nodup
    · refine ⟨xs, x, [], rfl, hxs, ?_⟩
      by_contra hx
      exact h (List.concat_eq_append ▸ hxs.concat hx)
    · obtain ⟨earlier, y, later, rfl, hy⟩ := ih hxs
      exact ⟨earlier, y, later ++ [x], by simp, hy⟩

/-! ### Candidates -/

variable {W : Type} {mark : Char}

/-- Whether a candidate is the one of a variant at a place in a registry. -/
structure Candidate.IsFor (mark : Char) (v : Definition W × Text) (order : Nat)
    (c : Candidate W) : Prop where
  type : c.type = v.1.type
  pattern : Pattern.ofText? mark v.2 = .ok c.pattern
  priority : c.priority = v.1.priority
  kinds : c.kinds = v.1.kinds
  order : c.order = order
  handler : c.handler = v.1.handler

theorem Pattern.text_of_ofText? {text : Text} {p : Pattern} (h : Pattern.ofText? mark text = .ok p) :
    p.text = text := by
  unfold Pattern.ofText? at h
  by_cases hopen : Pattern.maxOpenPieces < (Piece.ofText mark (Text.trim text)).countP Piece.isOpen
  · rw [if_pos hopen] at h
    exact absurd h nofun
  · rw [if_neg hopen] at h
    rw [← Except.ok.inj h]

namespace Registry

theorem candidatesFrom_cons {d : Definition W} {text : Text} {pattern : Pattern}
    (h : Pattern.ofText? mark text = .ok pattern) (order : Nat)
    (vs : List ((Definition W × Text) × Bool)) :
    candidatesFrom mark order (((d, text), false) :: vs) =
      (candidatesFrom mark (order + 1) vs).map
        (⟨d.type, pattern, d.priority, d.kinds, order, d.handler⟩ :: ·) := by
  rw [candidatesFrom, if_neg Bool.false_ne_true, h]

/-- Variants that repeat nothing have their candidates, in their order. -/
theorem exists_candidatesFrom_eq_ok {vs : List (Definition W × Text)}
    (h : ∀ v ∈ vs, ∃ pattern, Pattern.ofText? mark v.2 = .ok pattern) (order : Nat) :
    ∃ cs, candidatesFrom mark order (vs.map fun v => (v, false)) = .ok cs ∧
      List.Forall₂ (fun v c => Candidate.IsFor mark v.1 v.2 c) (vs.zipIdx order) cs := by
  induction vs generalizing order with
  | nil => exact ⟨[], rfl, .nil⟩
  | cons v vs ih =>
    obtain ⟨pattern, hp⟩ := h v List.mem_cons_self
    obtain ⟨cs, hcs, hfor⟩ := ih (fun u hu => h u (List.mem_cons_of_mem v hu)) (order + 1)
    refine ⟨⟨v.1.type, pattern, v.1.priority, v.1.kinds, order, v.1.handler⟩ :: cs, ?_, ?_⟩
    · rw [List.map_cons, candidatesFrom_cons hp, hcs]
      rfl
    · rw [List.zipIdx_cons]
      exact .cons ⟨rfl, hp, rfl, rfl, rfl, rfl⟩ hfor

/-- The first variant that repeats an earlier one is what is wrong. -/
theorem candidatesFrom_eq_error {vs : List (Definition W × Text)}
    (h : ∀ v ∈ vs, ∃ pattern, Pattern.ofText? mark v.2 = .ok pattern) (order : Nat)
    (d : Definition W) (text : Text) (rest : List ((Definition W × Text) × Bool)) :
    candidatesFrom mark order ((vs.map fun v => (v, false)) ++ ((d, text), true) :: rest) =
      .error (.duplicate d.type text) := by
  induction vs generalizing order with
  | nil => rfl
  | cons v vs ih =>
    obtain ⟨pattern, hp⟩ := h v List.mem_cons_self
    rw [List.map_cons, List.cons_append, candidatesFrom_cons hp,
      ih (fun u hu => h u (List.mem_cons_of_mem v hu))]
    rfl

/-! ### Registries -/

theorem exists_pattern_of_mem_declared {definitions : List (Definition W)}
    (hread : ∀ d ∈ definitions, ∀ text ∈ d.variants, ∃ pattern,
      Pattern.ofText? mark text = .ok pattern) :
    ∀ v ∈ declared definitions, ∃ pattern, Pattern.ofText? mark v.2 = .ok pattern := by
  intro v hv
  obtain ⟨d, hd, hv⟩ := List.mem_flatMap.1 hv
  obtain ⟨text, htext, rfl⟩ := List.mem_map.1 hv
  exact hread d hd text htext

/-- Candidates that are those of variants have their types and texts. -/
theorem map_identity_of_isFor {vs : List (Definition W × Text)} {cs : List (Candidate W)}
    {order : Nat} (h : List.Forall₂ (fun v c => Candidate.IsFor mark v.1 v.2 c) (vs.zipIdx order) cs) :
    cs.map (fun c => (c.type, c.pattern.text)) = vs.map identity := by
  induction vs generalizing order cs with
  | nil =>
    cases h
    rfl
  | cons v vs ih =>
    rw [List.zipIdx_cons] at h
    cases h with
    | cons hc hcs =>
      rw [List.map_cons, List.map_cons, ih hcs, hc.type, Pattern.text_of_ofText? hc.pattern]
      rfl

/-- The candidate at a place is the one of the variant at the same place. -/
theorem exists_isFor_of_getElem? {vs : List (Definition W × Text)} {cs : List (Candidate W)}
    (h : List.Forall₂ (fun v c => Candidate.IsFor mark v.1 v.2 c) vs.zipIdx cs) {i : Nat}
    {c : Candidate W} (hc : cs[i]? = some c) : ∃ v, vs[i]? = some v ∧ c.IsFor mark v i := by
  obtain ⟨hi, rfl⟩ := List.getElem?_eq_some_iff.1 hc
  have hlength : vs.length = cs.length := by rw [← h.length_eq, List.length_zipIdx]
  have hfor := h.get (by rw [List.length_zipIdx, hlength]; exact hi) hi
  refine ⟨vs[i], List.getElem?_eq_getElem (hlength ▸ hi), ?_⟩
  simpa using hfor

theorem identity_declared (definitions : List (Definition W)) :
    (declared definitions).map identity =
      definitions.flatMap fun d => (d.pattern :: d.aliases).flatMap fun pattern =>
        (Variants.expand pattern).map fun text => (d.type, text) := by
  simp only [declared, Definition.variants, Definition.patterns, List.map_flatMap, List.map_map]
  rfl

section Variants

variable {definitions : List (Definition W)} (keywords : Keywords) (hooks : List (Hook W))

/-- What is declared behind a variant that repeats an earlier one does not matter. -/
theorem build?_eq_error {vs us : List (Definition W × Text)} {v : Definition W × Text}
    (hdeclared : declared definitions = vs ++ v :: us)
    (hvs : ∀ u ∈ vs, ∃ pattern, Pattern.ofText? mark u.2 = .ok pattern)
    (hnodup : (vs.map identity).Nodup) (hmem : identity v ∈ vs.map identity) :
    build? keywords mark definitions hooks = .error (.duplicate v.1.type v.2) := by
  obtain ⟨rest, hmarked⟩ := exists_markRepeated_eq hnodup hmem us
  rw [build?, hdeclared, hmarked, candidatesFrom_eq_error hvs]
  rfl

variable (hread : ∀ v ∈ declared definitions, ∃ pattern, Pattern.ofText? mark v.2 = .ok pattern)
include hread

theorem exists_build?_eq_ok (hnodup : ((declared definitions).map identity).Nodup) :
    ∃ cs, build? keywords mark definitions hooks = .ok ⟨keywords, cs, hooks⟩ ∧
      List.Forall₂ (fun v c => Candidate.IsFor mark v.1 v.2 c) (declared definitions).zipIdx cs := by
  obtain ⟨cs, hcs, hfor⟩ := exists_candidatesFrom_eq_ok hread 0
  refine ⟨cs, ?_, hfor⟩
  rw [build?, markRepeated_of_nodup hnodup, hcs]
  rfl

theorem exists_build?_eq_error (hrepeated : ¬ ((declared definitions).map identity).Nodup) :
    ∃ earlier type text later,
      (declared definitions).map identity = earlier ++ (type, text) :: later ∧ earlier.Nodup ∧
        (type, text) ∈ earlier ∧
        build? keywords mark definitions hooks = .error (.duplicate type text) := by
  obtain ⟨earlier, x, later, hx, hearlier, hmem⟩ := exists_first_repeated hrepeated
  refine ⟨earlier, x.1, x.2, later, hx, hearlier, hmem, ?_⟩
  obtain ⟨vs, ws, hdeclared, rfl, hws⟩ := List.map_eq_append_iff.1 hx
  obtain ⟨v, us, rfl, rfl, rfl⟩ := List.map_eq_cons_iff.1 hws
  exact build?_eq_error keywords hooks hdeclared (fun u hu => hread u (by simp [hdeclared, hu]))
    hearlier hmem

end Variants

/-- Definitions whose variants can all be read make a registry if and only if no two variants have
the same type and text. It then has a candidate for each variant, in their order and with its place;
otherwise the first variant that repeats an earlier one is reported. -/
theorem build?_isOk_iff_nodup (keywords : Keywords) (mark : Char)
    (definitions : List (Definition W)) (hooks : List (Hook W))
    (hread : ∀ d ∈ definitions, ∀ text ∈ d.variants, ∃ pattern,
      Pattern.ofText? mark text = .ok pattern) :
    let built := build? keywords mark definitions hooks
    let listed := definitions.flatMap fun d => (d.pattern :: d.aliases).flatMap fun pattern =>
      (Variants.expand pattern).map fun text => (d.type, text)
    ((∃ registry, built = .ok registry) ↔ listed.Nodup) ∧
      (∀ registry, built = .ok registry →
        registry.keywords = keywords ∧ registry.hooks = hooks ∧
          registry.candidates.map (fun c => (c.type, c.pattern.text)) = listed ∧
          ∀ (i : Nat) (c : Candidate W), registry.candidates[i]? = some c →
            ∃ v, (declared definitions)[i]? = some v ∧ c.IsFor mark v i) ∧
      (¬ listed.Nodup → ∃ earlier type text later, listed = earlier ++ (type, text) :: later ∧
        earlier.Nodup ∧ (type, text) ∈ earlier ∧ built = .error (.duplicate type text)) := by
  intro built listed
  have hlisted : listed = (declared definitions).map identity :=
    (identity_declared definitions).symm
  have hvariants := exists_pattern_of_mem_declared hread
  have hok : listed.Nodup → ∃ cs, built = .ok ⟨keywords, cs, hooks⟩ ∧
      List.Forall₂ (fun v c => Candidate.IsFor mark v.1 v.2 c) (declared definitions).zipIdx cs :=
    fun hnodup => exists_build?_eq_ok keywords hooks hvariants (hlisted ▸ hnodup)
  have herror : ¬ listed.Nodup → ∃ earlier type text later,
      listed = earlier ++ (type, text) :: later ∧ earlier.Nodup ∧ (type, text) ∈ earlier ∧
        built = .error (.duplicate type text) := by
    intro hrepeated
    rw [hlisted] at hrepeated ⊢
    exact exists_build?_eq_error keywords hooks hvariants hrepeated
  have hnodup : ∀ registry, built = .ok registry → listed.Nodup := by
    intro registry hr
    by_contra h
    obtain ⟨_, _, _, _, -, -, -, he⟩ := herror h
    exact absurd (hr.symm.trans he) nofun
  refine ⟨⟨fun ⟨registry, hr⟩ => hnodup registry hr, fun h => ?_⟩, fun registry hr => ?_, herror⟩
  · obtain ⟨cs, hcs, -⟩ := hok h
    exact ⟨_, hcs⟩
  · obtain ⟨cs, hcs, hfor⟩ := hok (hnodup registry hr)
    obtain rfl := Except.ok.inj (hr.symm.trans hcs)
    exact ⟨rfl, rfl, (map_identity_of_isFor hfor).trans hlisted.symm,
      fun i c => exists_isFor_of_getElem? hfor⟩

/-- An alias repeats a variant of an earlier definition once its blanks are narrow. A step of another
type does not. -/
theorem build?_isOk_iff_nodup_of_repeated_alias :
    ∃ definitions : List (Definition Unit),
      (∀ d ∈ definitions, ∀ text ∈ d.variants, ∃ pattern,
        Pattern.ofText? '$' text = .ok pattern) ∧
      let built := build? .english '$' definitions []
      let listed := definitions.flatMap fun d => (d.pattern :: d.aliases).flatMap fun pattern =>
        (Variants.expand pattern).map fun text => (d.type, text)
      listed = [(.action, ("a b" : Text)), (.action, "a c"), (.action, "d"),
          (.precondition, "a c"), (.action, "a $x"), (.action, "a c")] ∧
        ¬ (∃ registry, built = .ok registry) ∧
        ∃ earlier type text later, listed = earlier ++ (type, text) :: later ∧ earlier.Nodup ∧
          (type, text) ∈ earlier ∧ built = .error (.duplicate type text) := by
  let define (type : StepType) (pattern : Text) (aliases : List Text) : Definition Unit :=
    { type := type, pattern := pattern, aliases := aliases, handler := fun w _ => (.ok, w) }
  let definitions := [define .action "a {b|c}" ["d"], define .precondition "a c" [],
    define .action "a  $x" ["a  c"]]
  have hexpand : Variants.expand = fun pattern =>
      distinctBy (fun t => t) ((Variants.continueWith [[]] pattern).map Text.squeeze) := rfl
  have hvariants : definitions.map Definition.variants =
      [[("a b" : Text), "a c", "d"], ["a c"], ["a $x", "a c"]] := by
    unfold Definition.variants
    rw [hexpand]
    cbv
  have hread : ∀ d ∈ definitions, ∀ text ∈ d.variants, ∃ pattern,
      Pattern.ofText? '$' text = .ok pattern := by
    intro d hd text htext
    have hmem : text ∈ (definitions.map Definition.variants).flatten :=
      List.mem_flatten.2 ⟨_, List.mem_map.2 ⟨d, hd, rfl⟩, htext⟩
    rw [hvariants] at hmem
    have hall : ∀ t ∈ [[("a b" : Text), "a c", "d"], ["a c"], ["a $x", "a c"]].flatten,
        (Pattern.ofText? '$' t).toBool := by decide +kernel
    have hok := hall text hmem
    cases hp : Pattern.ofText? '$' text with
    | ok pattern => exact ⟨pattern, rfl⟩
    | error e => rw [hp] at hok; cases hok
  obtain ⟨hiff, -, herror⟩ := build?_isOk_iff_nodup .english '$' definitions [] hread
  have hlisted : (definitions.flatMap fun d => (d.pattern :: d.aliases).flatMap fun pattern =>
      (Variants.expand pattern).map fun text => (d.type, text)) =
      [(.action, ("a b" : Text)), (.action, "a c"), (.action, "d"),
        (.precondition, "a c"), (.action, "a $x"), (.action, "a c")] := by
    rw [hexpand]
    cbv
  have hnodup : ¬ (definitions.flatMap fun d => (d.pattern :: d.aliases).flatMap fun pattern =>
      (Variants.expand pattern).map fun text => (d.type, text)).Nodup := by
    rw [hlisted]
    decide
  exact ⟨definitions, hread, hlisted, fun h => hnodup (hiff.1 h), herror hnodup⟩

end Registry

end PlainStory
