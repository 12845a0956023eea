import PlainStory.Proofs.Pattern.Alternatives
import PlainStory.Proofs.Pattern.Spacing
import PlainStory.Proofs.Step.Choice

/-!
# Blanks in definitions

A candidate is registered with narrow blanks. The main statement is that blanks never decide what a
pattern means: patterns with other blanks have the same names and values, a candidate is as good as
the pattern that was written, and what differs in its blanks alone is declared twice.
-/

namespace PlainStory

open Text (Respaced trim squeeze)

namespace Variants

/-- Whether a text comes of a pattern by taking an alternative of each directive. -/
def IsVariant (pattern variant : Text) : Prop :=
  ∃ (R : Reading) (places : List Nat),
    R.text = pattern ∧ IsChoice R.directives places ∧ R.choose places = variant

variable {pattern variant text : Text}

/-- A pattern without an opening brace has no variant but itself. -/
theorem isVariant_iff_of_not_mem (h : '{' ∉ pattern) :
    IsVariant pattern variant ↔ variant = pattern := by
  constructor
  · rintro ⟨⟨ds, last, hlast⟩, places, rfl, hplaces, rfl⟩
    cases ds with
    | nil =>
      cases hplaces
      rfl
    | cons d ds => simp [Reading.text, Directive.text] at h
  · rintro rfl
    have hunclosed : ∀ front rest, variant = front ++ '{' :: rest → '}' ∉ rest :=
      fun front rest hs => absurd (by simp [hs]) h
    exact ⟨⟨[], variant, hunclosed⟩, [], rfl, .nil, rfl⟩

theorem mem_expand :
    text ∈ expand pattern ↔ ∃ variant, IsVariant pattern variant ∧ squeeze variant = text := by
  obtain ⟨R, rfl⟩ := Reading.exists_text_eq pattern
  have hkeys := map_distinctBy id ((continueWith [[]] R.text).map squeeze)
  rw [List.map_id, List.map_id] at hkeys
  rw [expand, hkeys, List.mem_eraseDups, R.continueWith_text]
  simp only [List.flatMap_singleton, List.nil_append, List.map_id', List.mem_map, Reading.texts,
    mem_choices]
  constructor
  · rintro ⟨_, ⟨places, hplaces, rfl⟩, rfl⟩
    exact ⟨_, ⟨R, places, rfl, hplaces, rfl⟩, rfl⟩
  · rintro ⟨_, ⟨S, places, hS, hplaces, rfl⟩, rfl⟩
    obtain rfl := Reading.text_injective hS
    exact ⟨_, ⟨places, hplaces, rfl⟩, rfl⟩

theorem expand_of_not_mem (h : '{' ∉ pattern) : expand pattern = [squeeze pattern] := by
  have hnone : directive? pattern = none :=
    directive?_eq_none_iff.2 fun front rest hs => absurd (by simp [hs]) h
  unfold expand
  rw [continueWith_of_none [[]] hnone]
  simp [distinctBy_cons]

end Variants

/-! ### What is written and what is registered -/

variable {W : Type}

/-- Whether a candidate is that of a variant as it was written, in narrow form, and as good as it. -/
structure Candidate.IsAsWritten (mark : Char) (e : Definition W) (variant : Text)
    (c : Candidate W) : Prop where
  isFor : c.IsFor mark (e, squeeze variant) c.order
  alike : ∃ p, Pattern.ofText? mark variant = .ok p ∧ c.pattern.Alike p

theorem Candidate.isAsWritten_of_isFor {mark : Char} {e : Definition W} {variant : Text}
    {c : Candidate W} (h : c.IsFor mark (e, squeeze variant) c.order) :
    c.IsAsWritten mark e variant :=
  ⟨h, Pattern.exists_alike_of_respaced (Text.respaced_trim_squeeze variant).symm h.pattern⟩

namespace Declarations

open Variants Registry

/-- The patterns that are declared, in order, with the types of their definitions. -/
def written (d : Declarations W) : List (StepType × Text) :=
  d.definitions.flatMap fun e => e.patterns.map fun text => (e.type, text)

/-- The variants of patterns in narrow form. -/
def narrowed (patterns : List (StepType × Text)) : List (StepType × Text) :=
  patterns.flatMap fun v => (expand v.2).map fun text => (v.1, text)

theorem map_identity_declared (d : Declarations W) :
    (declared d.definitions).map identity = narrowed d.written := by
  rw [identity_declared, narrowed, written, List.flatMap_assoc]
  refine List.flatMap_congr fun e _ => ?_
  rw [List.flatMap_map]
  rfl

theorem mem_declared_iff {d : Declarations W} {e : Definition W} {text : Text} :
    (e, text) ∈ declared d.definitions ↔ e ∈ d.definitions ∧ ∃ pattern ∈ e.patterns,
      ∃ variant, IsVariant pattern variant ∧ squeeze variant = text := by
  simp [declared, Definition.variants, mem_expand]

variable {d : Declarations W} {before rest : List (StepType × Text)} {type : StepType} {s t : Text}

theorem narrowed_append_cons (h : d.written = before ++ (type, t) :: rest) (ht : '{' ∉ t) :
    (declared d.definitions).map identity =
      narrowed before ++ (type, squeeze t) :: narrowed rest := by
  rw [map_identity_declared, h]
  simp [narrowed, expand_of_not_mem ht]

theorem mem_narrowed (hs : '{' ∉ s) (hmem : (type, s) ∈ before)
    (hst : Respaced (trim s) (trim t)) : (type, squeeze t) ∈ narrowed before := by
  have hsqueeze : squeeze s = squeeze t := hst.narrow_eq
  refine List.mem_flatMap.2 ⟨(type, s), hmem, ?_⟩
  rw [expand_of_not_mem hs, hsqueeze]
  exact List.mem_singleton_self _

/-- A pattern that differs from an earlier one of its type in blanks alone makes no registry. -/
theorem build?_ne_ok (h : d.written = before ++ (type, t) :: rest) (hmem : (type, s) ∈ before)
    (hs : '{' ∉ s) (ht : '{' ∉ t) (hst : Respaced (trim s) (trim t)) (r : Registry W) :
    d.build? ≠ .ok r := by
  intro hr
  have hnodup := (build?_eq_ok_iff.1 ⟨r, hr⟩).2
  rw [narrowed_append_cons h ht, List.nodup_append] at hnodup
  exact hnodup.2.2 _ (mem_narrowed hs hmem hst) _ List.mem_cons_self rfl

/-- It is reported as declared twice, unless an earlier pattern already is. -/
theorem exists_build?_eq_duplicate (h : d.written = before ++ (type, t) :: rest)
    (hmem : (type, s) ∈ before) (hs : '{' ∉ s) (ht : '{' ∉ t) (hst : Respaced (trim s) (trim t))
    (hread : ∀ v ∈ before, ∀ variant, IsVariant v.2 variant →
      ∃ p, Pattern.ofText? d.mark variant = .ok p) :
    ∃ type' text, d.build? = .error (.duplicate type' text) ∧
      ((narrowed before).Nodup → type' = type ∧ text = squeeze t) := by
  obtain ⟨vs, ws, hdeclared, hvs, hws⟩ := List.map_eq_append_iff.1 (narrowed_append_cons h ht)
  obtain ⟨v, us, rfl, hv, -⟩ := List.map_eq_cons_iff.1 hws
  have hreadable : ∀ u ∈ vs, ∃ p, Pattern.ofText? d.mark u.2 = .ok p := by
    intro u hu
    have hu' : identity u ∈ narrowed before := hvs ▸ List.mem_map_of_mem hu
    obtain ⟨w, hw, htext⟩ := List.mem_flatMap.1 hu'
    obtain ⟨text, htext, hidentity⟩ := List.mem_map.1 htext
    obtain ⟨variant, hvariant, rfl⟩ := mem_expand.1 htext
    obtain ⟨p, hp⟩ := hread w hw variant hvariant
    obtain ⟨q, hq, -⟩ := Pattern.exists_alike_of_respaced (Text.respaced_trim_squeeze variant) hp
    have htwo : squeeze variant = u.2 := congrArg Prod.snd hidentity
    exact ⟨q, htwo ▸ hq⟩
  by_cases hnodup : (narrowed before).Nodup
  · have herror := build?_eq_error d.keywords d.hooks hdeclared hreadable (hvs ▸ hnodup)
      (by rw [hvs, hv]; exact mem_narrowed hs hmem hst)
    obtain ⟨htype, htext⟩ := Prod.mk.inj hv
    exact ⟨_, _, herror, fun _ => ⟨htype, htext⟩⟩
  · -- then what is declared before repeats something itself
    rw [← hvs] at hnodup
    obtain ⟨earlier, x, later, hx, hearlier, hmem'⟩ := exists_first_repeated hnodup
    obtain ⟨vs, ws', rfl, rfl, hws'⟩ := List.map_eq_append_iff.1 hx
    obtain ⟨w, us', rfl, rfl, rfl⟩ := List.map_eq_cons_iff.1 hws'
    rw [List.append_assoc, List.cons_append] at hdeclared
    have herror := build?_eq_error d.keywords d.hooks hdeclared
      (fun u hu => hreadable u (List.mem_append_left _ hu)) hearlier hmem'
    exact ⟨_, _, herror, fun h' => absurd (hvs ▸ h') hnodup⟩

/-- Blanks decide nothing. A pattern with other blanks in the place of its runs of blanks and at its
ends, such as its words with single spaces between them, can be used where it can, and has the same
names and values. Blanks at the ends of a step make no difference. A registry has the candidates of the
variants as they were written. Two patterns of one type without braces that differ in blanks alone
make no registry: the later one is reported as a duplicate, unless something before it is wrong. -/
theorem alike_of_respaced (mark : Char) :
    (∀ (s t : Text) (p : Pattern), Respaced (trim s) (trim t) → Pattern.ofText? mark s = .ok p →
        ∃ q, Pattern.ofText? mark t = .ok q ∧ q.names = p.names ∧
          ∀ step, q.values? step = p.values? step) ∧
      (∀ s, Respaced (trim s) (trim (Text.join [' '] (Text.words s))) ∧
        ('{' ∉ s → expand s = [Text.join [' '] (Text.words s)])) ∧
      (∀ (p : Pattern) (front step back : Text), (∀ c ∈ front, Text.isBlank c = true) →
        (∀ c ∈ back, Text.isBlank c = true) → p.values? (front ++ step ++ back) = p.values? step) ∧
      (∀ (d : Declarations W) (r : Registry W), d.build? = .ok r →
        (∀ c ∈ r.candidates, ∃ e ∈ d.definitions, ∃ pattern ∈ e.patterns, ∃ variant,
          IsVariant pattern variant ∧ ('{' ∉ pattern → variant = pattern) ∧
            c.IsAsWritten d.mark e variant) ∧
          ∀ e ∈ d.definitions, ∀ pattern ∈ e.patterns, ∀ variant, IsVariant pattern variant →
            ∃ c ∈ r.candidates, c.IsAsWritten d.mark e variant) ∧
      ∀ (d : Declarations W) (before rest : List (StepType × Text)) (type : StepType) (s t : Text),
        d.written = before ++ (type, t) :: rest → (type, s) ∈ before → '{' ∉ s → '{' ∉ t →
          Respaced (trim s) (trim t) →
            (∀ r, d.build? ≠ .ok r) ∧
              ((∀ v ∈ before, ∀ variant, IsVariant v.2 variant →
                  ∃ p, Pattern.ofText? d.mark variant = .ok p) →
                ∃ type' text, d.build? = .error (.duplicate type' text) ∧
                  ((narrowed before).Nodup → type' = type ∧ text = squeeze t)) := by
  refine ⟨fun s t p hst hp => ?_, fun s => ?_, fun p front step back hfront hback => ?_,
    fun d r hr => ⟨fun c hc => ?_, fun e he pattern hpattern variant hvariant => ?_⟩,
    fun d before rest type s t h hmem hs ht hst => ⟨?_, ?_⟩⟩
  · obtain ⟨q, hq, halike⟩ := Pattern.exists_alike_of_respaced hst hp
    exact ⟨q, hq, halike.names.symm, fun step => (halike.values step).symm⟩
  · rw [← Text.squeeze_eq_join_words]
    exact ⟨Text.respaced_trim_squeeze s, expand_of_not_mem⟩
  · exact p.values?_append_append hfront hback step
  · obtain ⟨i, hi⟩ := List.mem_iff_getElem?.1 hc
    obtain ⟨⟨e, text⟩, hv, hfor⟩ := exists_variant_of_build? hr hi
    obtain ⟨he, pattern, hpattern, variant, hvariant, rfl⟩ := mem_declared_iff.1 hv
    refine ⟨e, he, pattern, hpattern, variant, hvariant, fun hno => ?_, ?_⟩
    · exact (isVariant_iff_of_not_mem hno).1 hvariant
    · exact Candidate.isAsWritten_of_isFor (hfor.order ▸ hfor)
  · have hv := mem_declared_iff.2 ⟨he, pattern, hpattern, variant, hvariant, rfl⟩
    obtain ⟨c, hc, hfor⟩ := exists_candidate_of_build? hr hv
    exact ⟨c, hc, Candidate.isAsWritten_of_isFor hfor⟩
  · exact build?_ne_ok h hmem hs ht hst
  · exact exists_build?_eq_duplicate h hmem hs ht hst

/-- A step of two types, and once more with a tab, with blanks at its end, and with wide blanks. -/
def payment : Declarations Unit where
  keywords := .english
  mark := '$'
  definitions :=
    [{ type := .precondition, pattern := "I pay $sum", handler := fun w _ => (.ok, w) },
      { type := .action, pattern := "I\tpay  $sum ", aliases := ["\u00a0I pay\u3000$sum"],
        handler := fun w _ => (.ok, w) }]
  hooks := []

theorem alike_of_respaced_of_payment :
    (∃ q, Pattern.ofText? '$' "\u00a0I pay\u3000$sum" = .ok q ∧ q.names = [("sum" : Text)]) ∧
      payment.written = [(.precondition, ("I pay $sum" : Text)), (.action, "I\tpay  $sum "),
        (.action, "\u00a0I pay\u3000$sum")] ∧
      payment.build? = .error (.duplicate .action "I pay $sum") := by
  obtain ⟨hpattern, -, -, -, hbuild⟩ := alike_of_respaced (W := Unit) '$'
  have hrespaced : Respaced (trim "I\tpay  $sum ") (trim "\u00a0I pay\u3000$sum") := by
    decide +kernel
  have hread : ∀ s ∈ [("I pay $sum" : Text), "I\tpay  $sum "], ∃ p,
      Pattern.ofText? '$' s = .ok p ∧ p.names = [("sum" : Text)] := by
    intro s hs
    have hall : ∀ t ∈ [("I pay $sum" : Text), "I\tpay  $sum "],
        (Pattern.ofText? '$' t).toOption.map Pattern.names = some [("sum" : Text)] := by
      decide +kernel
    have hnames := hall s hs
    cases hp : Pattern.ofText? '$' s with
    | error e => simp [hp, Except.toOption] at hnames
    | ok p => exact ⟨p, rfl, by simpa [hp, Except.toOption] using hnames⟩
  have hvariants : ∀ v ∈ [(StepType.precondition, ("I pay $sum" : Text)),
      (.action, "I\tpay  $sum ")], ∀ variant, IsVariant v.2 variant →
        ∃ p, Pattern.ofText? '$' variant = .ok p := by
    intro v hv variant hvariant
    have hv' : v.2 ∈ [("I pay $sum" : Text), "I\tpay  $sum "] :=
      List.mem_map_of_mem (f := Prod.snd) hv
    have hno : ∀ s ∈ [("I pay $sum" : Text), "I\tpay  $sum "], '{' ∉ s := by decide +kernel
    rw [(isVariant_iff_of_not_mem (hno _ hv')).1 hvariant]
    obtain ⟨p, hp, -⟩ := hread _ hv'
    exact ⟨p, hp⟩
  refine ⟨?_, rfl, ?_⟩
  · obtain ⟨p, hp, hnames⟩ := hread "I\tpay  $sum " (by simp)
    obtain ⟨q, hq, hsame, -⟩ := hpattern _ _ p hrespaced hp
    exact ⟨q, hq, hsame.trans hnames⟩
  · have hbefore : narrowed [(.precondition, ("I pay $sum" : Text)), (.action, "I\tpay  $sum ")] =
        [(.precondition, ("I pay $sum" : Text)), (.action, "I pay $sum")] := by
      simp only [narrowed, List.flatMap_cons, List.flatMap_nil]
      rw [expand_of_not_mem (by decide +kernel), expand_of_not_mem (by decide +kernel)]
      decide +kernel
    obtain ⟨-, hduplicate⟩ := hbuild payment
      [(.precondition, "I pay $sum"), (.action, "I\tpay  $sum ")] [] .action "I\tpay  $sum "
      "\u00a0I pay\u3000$sum" rfl (by simp) (by decide +kernel) (by decide +kernel) hrespaced
    obtain ⟨type', text, herror, hsame⟩ := hduplicate hvariants
    obtain ⟨rfl, rfl⟩ := hsame (by rw [hbefore]; decide +kernel)
    have hnarrow : squeeze "\u00a0I pay\u3000$sum" = ("I pay $sum" : Text) := by decide +kernel
    rw [herror, hnarrow]

end Declarations

end PlainStory
