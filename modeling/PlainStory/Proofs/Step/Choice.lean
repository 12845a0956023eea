import Mathlib.Data.List.Perm.Basic
import PlainStory.Proofs.Step.Building
import PlainStory.Proofs.Step.Ranking

/-!
# Choosing among registries

What is found for a step among registries that are built from declarations. The main statement is that
the match of highest priority is found, the earliest of those, whether all matches are compared or only
those that the registries find each by itself, and that the order of definitions and registries decides
nothing where one match has the highest priority alone.
-/

namespace PlainStory

variable {W : Type}

theorem getElem?_of_forall₂ {α β : Type} {R : α → β → Prop} {xs : List α} {ys : List β}
    (h : List.Forall₂ R xs ys) {i : Nat} {x : α} (hx : xs[i]? = some x) :
    ∃ y, ys[i]? = some y ∧ R x y := by
  induction h generalizing i with
  | nil => exact absurd hx (by simp)
  | @cons x' y' xs ys hr _ ih =>
    cases i with
    | zero =>
      obtain rfl : x' = x := by simpa using hx
      exact ⟨y', rfl, hr⟩
    | succ i => exact ih hx

namespace Registry

/-! ### Built registries -/

theorem map_fst_markRepeatedFrom {α κ : Type} [BEq κ] [Hashable κ] (key : α → κ)
    (seen : Std.HashSet κ) (xs : List α) : (markRepeatedFrom key seen xs).map Prod.fst = xs := by
  induction xs generalizing seen with
  | nil => rfl
  | cons x xs ih => rw [markRepeatedFrom, List.map_cons, ih]

/-- Candidates are made of variants that can all be read. -/
theorem exists_pattern_of_candidatesFrom {mark : Char} {order : Nat}
    {vs : List ((Definition W × Text) × Bool)} {cs : List (Candidate W)}
    (h : candidatesFrom mark order vs = .ok cs) :
    ∀ v ∈ vs.map Prod.fst, ∃ pattern, Pattern.ofText? mark v.2 = .ok pattern := by
  induction vs generalizing order cs with
  | nil => exact List.forall_mem_nil _
  | cons v vs ih =>
    obtain ⟨⟨d, text⟩, repeated⟩ := v
    rw [candidatesFrom] at h
    split at h
    · cases h
    · split at h
      · cases h
      · next pattern hpattern =>
        cases hrest : candidatesFrom mark (order + 1) vs with
        | error e =>
          rw [hrest] at h
          cases h
        | ok rest => exact List.forall_mem_cons.2 ⟨⟨pattern, hpattern⟩, ih hrest⟩

end Registry

/-- A variant at a place has one candidate. -/
theorem Candidate.IsFor.unique {mark : Char} {v : Definition W × Text} {order : Nat}
    {c c' : Candidate W} (h : c.IsFor mark v order) (h' : c'.IsFor mark v order) : c = c' := by
  obtain ⟨type, pattern, priority, kinds, place, handler⟩ := c
  obtain ⟨type', pattern', priority', kinds', place', handler'⟩ := c'
  obtain ⟨rfl, hp, rfl, rfl, rfl, rfl⟩ := h
  obtain ⟨rfl, hp', rfl, rfl, rfl, rfl⟩ := h'
  obtain rfl : pattern = pattern' := Except.ok.inj (hp.symm.trans hp')
  rfl

/-- What a registry is built from. -/
structure Declarations (W : Type) where
  keywords : Keywords
  mark : Char
  definitions : List (Definition W)
  hooks : List (Hook W)

namespace Declarations

def build? (d : Declarations W) : Except RegistryError (Registry W) :=
  Registry.build? d.keywords d.mark d.definitions d.hooks

/-- Declarations that make a registry have variants that can all be read, no two of one type with the
same text. -/
theorem build?_eq_ok_iff {d : Declarations W} :
    (∃ r, d.build? = .ok r) ↔
      (∀ v ∈ Registry.declared d.definitions, ∃ pattern, Pattern.ofText? d.mark v.2 = .ok pattern) ∧
        ((Registry.declared d.definitions).map Registry.identity).Nodup := by
  constructor
  · rintro ⟨r, hr⟩
    have hread : ∀ v ∈ Registry.declared d.definitions, ∃ pattern,
        Pattern.ofText? d.mark v.2 = .ok pattern := by
      cases hcs : Registry.candidatesFrom d.mark 0
          (markRepeated Registry.identity (Registry.declared d.definitions)) with
      | error e =>
        rw [build?, Registry.build?, hcs] at hr
        cases hr
      | ok cs =>
        have hmap := Registry.map_fst_markRepeatedFrom Registry.identity ∅
          (Registry.declared d.definitions)
        rw [← hmap]
        exact Registry.exists_pattern_of_candidatesFrom hcs
    refine ⟨hread, ?_⟩
    by_contra hrepeated
    obtain ⟨_, _, _, _, -, -, -, he⟩ :=
      Registry.exists_build?_eq_error d.keywords d.hooks hread hrepeated
    rw [build?, he] at hr
    cases hr
  · rintro ⟨hread, hnodup⟩
    obtain ⟨cs, hcs, -⟩ := Registry.exists_build?_eq_ok d.keywords d.hooks hread hnodup
    exact ⟨_, hcs⟩

theorem forall₂_of_build? {d : Declarations W} {r : Registry W} (h : d.build? = .ok r) :
    r.keywords = d.keywords ∧
      List.Forall₂ (fun v c => Candidate.IsFor d.mark v.1 v.2 c)
        (Registry.declared d.definitions).zipIdx r.candidates := by
  obtain ⟨hread, hnodup⟩ := build?_eq_ok_iff.1 ⟨r, h⟩
  obtain ⟨cs, hcs, hfor⟩ := Registry.exists_build?_eq_ok d.keywords d.hooks hread hnodup
  obtain rfl := Except.ok.inj (h.symm.trans hcs)
  exact ⟨rfl, hfor⟩

/-- What is built has the candidates of the variants and no other ones. -/
theorem build?_eq_ok_of_forall₂ {d : Declarations W} {vs : List (Definition W × Text)}
    {cs : List (Candidate W)} (hvs : Registry.declared d.definitions = vs)
    (hnodup : (vs.map Registry.identity).Nodup)
    (h : List.Forall₂ (fun v c => Candidate.IsFor d.mark v.1 v.2 c) vs.zipIdx cs) :
    d.build? = .ok ⟨d.keywords, cs, d.hooks⟩ := by
  subst hvs
  have hread : ∀ v ∈ Registry.declared d.definitions, ∃ pattern,
      Pattern.ofText? d.mark v.2 = .ok pattern := by
    intro v hv
    obtain ⟨i, hi⟩ := List.mem_iff_getElem?.1 hv
    have hplace := List.mk_mem_zipIdx_iff_getElem?.2 hi
    obtain ⟨j, hj⟩ := List.mem_iff_getElem?.1 hplace
    obtain ⟨c, -, hfor⟩ := getElem?_of_forall₂ h hj
    exact ⟨c.pattern, hfor.pattern⟩
  obtain ⟨cs', hcs', hfor⟩ := Registry.exists_build?_eq_ok d.keywords d.hooks hread hnodup
  have hunique : Relator.RightUnique fun (v : (Definition W × Text) × Nat) (c : Candidate W) =>
      Candidate.IsFor d.mark v.1 v.2 c := fun _ _ _ => Candidate.IsFor.unique
  obtain rfl : cs' = cs := List.right_unique_forall₂' hunique hfor h
  exact hcs'

/-- Every candidate is that of a variant. -/
theorem exists_variant_of_build? {d : Declarations W} {r : Registry W} (h : d.build? = .ok r)
    {i : Nat} {c : Candidate W} (hc : r.candidates[i]? = some c) :
    ∃ v ∈ Registry.declared d.definitions, c.IsFor d.mark v i := by
  obtain ⟨v, hv, hfor⟩ := Registry.exists_isFor_of_getElem? (forall₂_of_build? h).2 hc
  exact ⟨v, List.mem_of_getElem? hv, hfor⟩

/-- Every variant has its candidate. -/
theorem exists_candidate_of_build? {d : Declarations W} {r : Registry W} (h : d.build? = .ok r)
    {v : Definition W × Text} (hv : v ∈ Registry.declared d.definitions) :
    ∃ c ∈ r.candidates, c.IsFor d.mark v c.order := by
  have hfor := (forall₂_of_build? h).2
  obtain ⟨i, hi, rfl⟩ := List.mem_iff_getElem.1 hv
  have hlength : (Registry.declared d.definitions).length = r.candidates.length := by
    rw [← hfor.length_eq, List.length_zipIdx]
  have hget := hfor.get (by rw [List.length_zipIdx]; exact hi) (hlength ▸ hi)
  have hc : Candidate.IsFor d.mark (Registry.declared d.definitions)[i] i
      (r.candidates.get ⟨i, hlength ▸ hi⟩) := by
    simpa using hget
  exact ⟨_, List.get_mem r.candidates _, by rw [hc.order]; exact hc⟩

theorem ordered_of_build? {d : Declarations W} {r : Registry W} (h : d.build? = .ok r) :
    r.Ordered := by
  intro i c hc
  obtain ⟨v, -, hfor⟩ := exists_variant_of_build? h hc
  exact hfor.order

/-! ### Rearrangements -/

/-- Whether declarations have the same definitions in another order, and are otherwise the same. -/
structure Rearranges (d e : Declarations W) : Prop where
  keywords : e.keywords = d.keywords
  mark : e.mark = d.mark
  definitions : e.definitions.Perm d.definitions
  hooks : e.hooks = d.hooks

theorem Rearranges.declared {d e : Declarations W} (h : d.Rearranges e) :
    (Registry.declared e.definitions).Perm (Registry.declared d.definitions) :=
  h.definitions.flatMap_right _

/-- The order of definitions does not decide whether they make a registry. -/
theorem Rearranges.exists_build?_eq_ok {d e : Declarations W} (h : d.Rearranges e)
    (hd : ∃ r, d.build? = .ok r) : ∃ r, e.build? = .ok r := by
  obtain ⟨hread, hnodup⟩ := build?_eq_ok_iff.1 hd
  refine build?_eq_ok_iff.2 ⟨fun v hv => ?_, ?_⟩
  · rw [h.mark]
    exact hread v (h.declared.mem_iff.1 hv)
  · exact (h.declared.map Registry.identity).nodup_iff.2 hnodup

theorem Rearranges.symm {d e : Declarations W} (h : d.Rearranges e) : e.Rearranges d :=
  ⟨h.keywords.symm, h.mark.symm, h.definitions.symm, h.hooks.symm⟩

/-- Whether two candidates are made of one variant. -/
def Share (d : Declarations W) (c c' : Candidate W) : Prop :=
  ∃ v ∈ Registry.declared d.definitions,
    c.IsFor d.mark v c.order ∧ c'.IsFor d.mark v c'.order

theorem Share.pattern_eq {d : Declarations W} {c c' : Candidate W} (h : d.Share c c') :
    c'.pattern = c.pattern := by
  obtain ⟨v, -, hc, hc'⟩ := h
  exact Except.ok.inj (hc'.pattern.symm.trans hc.pattern)

theorem Share.priority_eq {d : Declarations W} {c c' : Candidate W} (h : d.Share c c') :
    c'.priority = c.priority := by
  obtain ⟨v, -, hc, hc'⟩ := h
  rw [hc.priority, hc'.priority]

/-- The candidates of rearranged declarations are made of the same variants. -/
theorem Rearranges.exists_share {d e : Declarations W} (h : d.Rearranges e) {r r' : Registry W}
    (hr : d.build? = .ok r) (hr' : e.build? = .ok r') {c : Candidate W} (hc : c ∈ r.candidates) :
    r'.keywords = r.keywords ∧ ∃ c' ∈ r'.candidates, d.Share c c' := by
  have hkeywords : r'.keywords = r.keywords := by
    rw [(forall₂_of_build? hr).1, (forall₂_of_build? hr').1, h.keywords]
  have hplace := (ordered_of_build? hr).getElem?_order hc
  obtain ⟨v, hv, hfor⟩ := exists_variant_of_build? hr hplace
  obtain ⟨c', hc', hfor'⟩ := exists_candidate_of_build? hr' (h.declared.mem_iff.2 hv)
  rw [h.mark] at hfor'
  exact ⟨hkeywords, c', hc', v, hv, hfor, hfor'⟩

/-- Whether lists of declarations have the same declarations in another order, each of them with its
definitions in another order. -/
def RearrangeAll (ds es : List (Declarations W)) : Prop :=
  ∃ middle, List.Forall₂ Rearranges ds middle ∧ middle.Perm es

theorem RearrangeAll.exists_right {ds es : List (Declarations W)} (h : RearrangeAll ds es)
    {d : Declarations W} (hd : d ∈ ds) : ∃ e ∈ es, d.Rearranges e := by
  obtain ⟨middle, hmiddle, hperm⟩ := h
  obtain ⟨i, hi⟩ := List.mem_iff_getElem?.1 hd
  obtain ⟨e, he, hr⟩ := getElem?_of_forall₂ hmiddle hi
  exact ⟨e, hperm.mem_iff.1 (List.mem_of_getElem? he), hr⟩

theorem RearrangeAll.exists_left {ds es : List (Declarations W)} (h : RearrangeAll ds es)
    {e : Declarations W} (he : e ∈ es) : ∃ d ∈ ds, d.Rearranges e := by
  obtain ⟨middle, hmiddle, hperm⟩ := h
  obtain ⟨i, hi⟩ := List.mem_iff_getElem?.1 (hperm.mem_iff.2 he)
  obtain ⟨d, hd, hr⟩ := getElem?_of_forall₂ hmiddle.flip hi
  exact ⟨d, List.mem_of_getElem? hd, hr⟩

/-- Whether registries are built from declarations, one from each. -/
abbrev BuildAll (ds : List (Declarations W)) (rs : List (Registry W)) : Prop :=
  List.Forall₂ (fun d r => d.build? = .ok r) ds rs

theorem BuildAll.ordered {ds : List (Declarations W)} {rs : List (Registry W)}
    (h : BuildAll ds rs) : ∀ r ∈ rs, r.Ordered := by
  intro r hr
  obtain ⟨i, hi⟩ := List.mem_iff_getElem?.1 hr
  obtain ⟨d, -, hd⟩ := getElem?_of_forall₂ h.flip hi
  exact ordered_of_build? hd

theorem exists_buildAll {ds : List (Declarations W)} (h : ∀ d ∈ ds, ∃ r, d.build? = .ok r) :
    ∃ rs, BuildAll ds rs := by
  induction ds with
  | nil => exact ⟨[], .nil⟩
  | cons d ds ih =>
    obtain ⟨⟨r, hr⟩, hds⟩ := List.forall_mem_cons.1 h
    obtain ⟨rs, hrs⟩ := ih hds
    exact ⟨r :: rs, .cons hr hrs⟩

theorem RearrangeAll.exists_buildAll {ds es : List (Declarations W)} (h : RearrangeAll ds es)
    {rs : List (Registry W)} (hrs : BuildAll ds rs) : ∃ rs', BuildAll es rs' := by
  refine Declarations.exists_buildAll fun e he => ?_
  obtain ⟨d, hd, hde⟩ := h.exists_left he
  obtain ⟨i, hi⟩ := List.mem_iff_getElem?.1 hd
  obtain ⟨r, -, hr⟩ := getElem?_of_forall₂ hrs hi
  exact hde.exists_build?_eq_ok ⟨r, hr⟩

end Declarations

/-! ### One match of highest priority -/

namespace Registry

open Declarations

/-- Whether a candidate of the registry with number `i` matches a step, and has higher priority than
every other candidate of any registry that does. -/
structure Leads (registries : List (Registry W)) (step : Text) (i : Nat) (c : Candidate W) :
    Prop where
  isMatch : ∃ r, registries[i]? = some r ∧ c ∈ r.candidates ∧
    c.pattern.isMatch (r.keywords.withoutStartingWord step) = true
  lower : ∀ (j : Nat) (r : Registry W), registries[j]? = some r → ∀ c' ∈ r.candidates,
    c'.pattern.isMatch (r.keywords.withoutStartingWord step) = true →
      (j = i ∧ c'.order = c.order) ∨ c'.priority < c.priority

variable {registries registries' : List (Registry W)} {step : Text} {i : Nat} {c : Candidate W}

theorem Leads.exists_findAcross? (hordered : ∀ r ∈ registries, r.Ordered)
    (h : Leads registries step i c) :
    ∃ m, findAcross? registries step = some m ∧ m.candidate = c ∧
      ∃ r, registries[i]? = some r ∧
        c.pattern.values? (r.keywords.withoutStartingWord step) = some m.values := by
  obtain ⟨r, hr, hc, hmatch⟩ := h.isMatch
  obtain ⟨m, hm, rfl⟩ := (exists_match_iff hc).1 hmatch
  refine ⟨m, (findAcross?_eq_some_iff hordered).2 ⟨i, r, hr, hm, fun j r' n hr' hn => ?_⟩, rfl,
    r, hr, (mem_matchesOf.1 hm).2⟩
  have hn' := (mem_matchesOf.1 hn).1
  have hlower := h.lower j r' hr' n.candidate hn' ((exists_match_iff hn').2 ⟨n, hn, rfl⟩)
  rw [Match.rank_le_iff]
  rcases hlower with ⟨rfl, horder⟩ | hlt
  · obtain rfl : r = r' := Option.some.inj (hr.symm.trans hr')
    have hsame := (hordered r (List.mem_of_getElem? hr)).eq_of_order_eq hn' hc horder
    rw [hsame]
    omega
  · omega

/-- Rearranged declarations find a candidate of the variant that leads, with the same values. -/
theorem Leads.exists_findAcross?_of_rearrange {ds es : List (Declarations W)}
    (hds : BuildAll ds registries) (hes : BuildAll es registries') (hre : RearrangeAll ds es)
    (h : Leads registries step i c) :
    ∃ m, findAcross? registries' step = some m ∧
      (∃ r, registries[i]? = some r ∧
        c.pattern.values? (r.keywords.withoutStartingWord step) = some m.values) ∧
      ∃ d, ds[i]? = some d ∧ d.Share c m.candidate := by
  obtain ⟨r, hr, hc, hmatch⟩ := h.isMatch
  -- a rearranged registry has a candidate of the leading variant
  obtain ⟨d, hd, hbuild⟩ := getElem?_of_forall₂ hds.flip hr
  obtain ⟨e, he, hde⟩ := hre.exists_right (List.mem_of_getElem? hd)
  obtain ⟨k, hk⟩ := List.mem_iff_getElem?.1 he
  obtain ⟨r', hr', hbuild'⟩ := getElem?_of_forall₂ hes hk
  obtain ⟨hkeywords, c', hc', hshare⟩ := hde.exists_share hbuild hbuild' hc
  rw [← hkeywords, ← hshare.pattern_eq] at hmatch
  obtain ⟨n, hn, rfl⟩ := (exists_match_iff hc').1 hmatch
  -- so something is found, and has no lower priority
  have hsome : findAcross? registries' step ≠ none := by
    rw [Ne, findAcross?_eq_none_iff]
    intro hnone
    have hno := hnone r' (List.mem_of_getElem? hr') n.candidate hc'
    rw [hmatch] at hno
    exact absurd hno nofun
  obtain ⟨m, hm⟩ := Option.ne_none_iff_exists'.1 hsome
  obtain ⟨j, q, hq, hmq, hle⟩ := (findAcross?_eq_some_iff hes.ordered).1 hm
  have hpriority := Match.rank_le_iff.1 (hle k r' n hr' hn)
  rw [hshare.priority_eq] at hpriority
  -- its variant has a candidate among the first registries, which can only be the leading one
  obtain ⟨hmc, hvalues⟩ := mem_matchesOf.1 hmq
  have hmm := (exists_match_iff hmc).2 ⟨m, hmq, rfl⟩
  obtain ⟨e', he', hbuild₁⟩ := getElem?_of_forall₂ hes.flip hq
  obtain ⟨d', hd', hde'⟩ := hre.exists_left (List.mem_of_getElem? he')
  obtain ⟨l, hl⟩ := List.mem_iff_getElem?.1 hd'
  obtain ⟨q', hq', hbuild₂⟩ := getElem?_of_forall₂ hds hl
  obtain ⟨hkeywords', b, hb, v, hv, hmv, hbv⟩ := hde'.symm.exists_share hbuild₁ hbuild₂ hmc
  have hshare' : d'.Share b m.candidate :=
    ⟨v, hde'.declared.mem_iff.1 hv, hde'.mark ▸ hbv, hde'.mark ▸ hmv⟩
  rw [← hkeywords', hshare'.pattern_eq] at hmm hvalues
  rcases h.lower l q' hq' b hb hmm with ⟨rfl, horder⟩ | hlt
  · obtain rfl : r = q' := Option.some.inj (hr.symm.trans hq')
    obtain rfl := (hds.ordered r (List.mem_of_getElem? hr)).eq_of_order_eq hb hc horder
    exact ⟨m, hm, ⟨r, hr, hvalues⟩, d', hl, hshare'⟩
  · have hequal := hshare'.priority_eq
    omega

/-- What is found for a step among built registries is the match of highest priority, of those the one
in the earliest registry, and of those the earliest candidate, with the values that its own pattern
gives. It is also the match of highest priority, and of those the earliest, that the registries find
each by itself. Where one candidate leads, the order of the registries and of the definitions in each
does not decide which variant of which definition is found. -/
theorem findAcross?_optimal {ds : List (Declarations W)} {registries : List (Registry W)}
    (hds : BuildAll ds registries) (step : Text) :
    ((∃ m, findAcross? registries step = some m) ↔
        ∃ r ∈ registries, ∃ c ∈ r.candidates,
          c.pattern.isMatch (r.keywords.withoutStartingWord step) = true) ∧
      (∀ m, findAcross? registries step = some m →
        ∃ i r, registries[i]? = some r ∧ r.candidates[m.candidate.order]? = some m.candidate ∧
          m.candidate.pattern.values? (r.keywords.withoutStartingWord step) = some m.values ∧
          ∀ (j : Nat) (r' : Registry W), registries[j]? = some r' → ∀ c ∈ r'.candidates,
            c.pattern.isMatch (r'.keywords.withoutStartingWord step) = true →
              c.priority < m.candidate.priority ∨
                c.priority = m.candidate.priority ∧
                  (i < j ∨ i = j ∧ m.candidate.order ≤ c.order)) ∧
      (∀ m, findAcross? registries step = some m ↔
        ∃ i r, registries[i]? = some r ∧ r.find? step = some m ∧
          ∀ (j : Nat) (r' : Registry W) (n : Match W), registries[j]? = some r' →
            r'.find? step = some n →
              n.candidate.priority < m.candidate.priority ∨
                n.candidate.priority = m.candidate.priority ∧ i ≤ j) ∧
      (∀ r, registries = [r] → findAcross? registries step = r.find? step) ∧
      (∀ i c, Leads registries step i c → ∀ es, RearrangeAll ds es →
        ∃ registries' m m', BuildAll es registries' ∧ findAcross? registries step = some m ∧
          findAcross? registries' step = some m' ∧ m.candidate = c ∧ m'.values = m.values ∧
          ∃ d, ds[i]? = some d ∧ d.Share m.candidate m'.candidate) := by
  have hordered := hds.ordered
  refine ⟨?_, fun m hm => ?_, fun m => findAcross?_eq_some_iff_find? hordered, ?_,
    fun i c hlead es hre => ?_⟩
  · rw [← Option.isSome_iff_exists, Option.isSome_iff_ne_none, Ne, findAcross?_eq_none_iff]
    simp
  · obtain ⟨i, r, hr, hmr, hle⟩ := (findAcross?_eq_some_iff hordered).1 hm
    obtain ⟨hmc, hvalues⟩ := mem_matchesOf.1 hmr
    have hplace := (hordered r (List.mem_of_getElem? hr)).getElem?_order hmc
    refine ⟨i, r, hr, hplace, hvalues, fun j r' hr' c hc hmatch => ?_⟩
    obtain ⟨n, hn, rfl⟩ := (exists_match_iff hc).1 hmatch
    exact Match.rank_le_iff.1 (hle j r' n hr' hn)
  · rintro r rfl
    exact findAcross?_singleton r step
  · obtain ⟨registries', hes⟩ := hre.exists_buildAll hds
    obtain ⟨m, hm, rfl, r, hr, hvalues⟩ := hlead.exists_findAcross? hordered
    obtain ⟨m', hm', ⟨r', hr', hvalues'⟩, hshare⟩ :=
      hlead.exists_findAcross?_of_rearrange hds hes hre
    obtain rfl : r = r' := Option.some.inj (hr.symm.trans hr')
    have hsame : m'.values = m.values := Option.some.inj (hvalues'.symm.trans hvalues)
    exact ⟨registries', m, m', hes, hm, hm', rfl, hsame, hshare⟩

/-! ### Two registries -/

/-- A definition whose handler does nothing. -/
def definitionOf (type : StepType) (pattern : Text) (priority : Int) : Definition Unit :=
  { type, pattern, priority, handler := fun w _ => (.ok, w) }

def candidateOf (type : StepType) (pattern : Text) (priority : Int) (order : Nat) :
    Candidate Unit :=
  ⟨type, ⟨pattern, '$', Piece.ofText '$' (Text.trim pattern)⟩, priority, [], order,
    fun w _ => (.ok, w)⟩

/-- Keywords that have another starting word for "Given". -/
def supposeKeywords : Keywords := ⟨fun w => if w = .precondition then "Suppose" else w.english⟩

def payments : List (Declarations Unit) :=
  [⟨.english, '$',
      [definitionOf .action "I pay $x" (-1), definitionOf .precondition "I pay {ten|$n}" 2], []⟩,
    ⟨supposeKeywords, '$',
      [definitionOf .outcome "$who pay ten" 2, definitionOf .action "Given I pay $x" 1], []⟩]

def paymentRegistries : List (Registry Unit) :=
  [⟨.english, [candidateOf .action "I pay $x" (-1) 0, candidateOf .precondition "I pay ten" 2 1,
      candidateOf .precondition "I pay $n" 2 2], []⟩,
    ⟨supposeKeywords, [candidateOf .outcome "$who pay ten" 2 0,
      candidateOf .action "Given I pay $x" 1 1], []⟩]

theorem isFor_candidateOf {type : StepType} {pattern variant : Text} {priority : Int} {order : Nat}
    (hsize : (Piece.ofText '$' (Text.trim variant)).countP Piece.isOpen ≤ Pattern.maxOpenPieces) :
    (candidateOf type variant priority order).IsFor '$' (definitionOf type pattern priority, variant)
      order where
  type := rfl
  pattern := by rw [Pattern.ofText?, if_neg (Nat.not_lt.2 hsize)]; rfl
  priority := rfl
  kinds := rfl
  order := rfl
  handler := rfl

theorem declared_payments : payments.map (fun d => declared d.definitions) =
    [[(definitionOf .action "I pay $x" (-1), ("I pay $x" : Text)),
        (definitionOf .precondition "I pay {ten|$n}" 2, "I pay ten"),
        (definitionOf .precondition "I pay {ten|$n}" 2, "I pay $n")],
      [(definitionOf .outcome "$who pay ten" 2, "$who pay ten"),
        (definitionOf .action "Given I pay $x" 1, "Given I pay $x")]] := by
  have hexpand : Variants.expand = fun pattern =>
      distinctBy (fun t => t) ((Variants.continueWith [[]] pattern).map Text.squeeze) := rfl
  unfold declared Definition.variants
  rw [hexpand]
  cbv

theorem buildAll_payments : BuildAll payments paymentRegistries := by
  obtain ⟨hfirst, hmore⟩ := List.cons.inj declared_payments
  obtain ⟨hsecond, -⟩ := List.cons.inj hmore
  refine .cons (Declarations.build?_eq_ok_of_forall₂ hfirst (by decide) ?_)
    (.cons (Declarations.build?_eq_ok_of_forall₂ hsecond (by decide) ?_) .nil)
  · exact .cons (isFor_candidateOf (by decide +kernel)) (.cons (isFor_candidateOf (by decide +kernel))
      (.cons (isFor_candidateOf (by decide +kernel)) .nil))
  · exact .cons (isFor_candidateOf (by decide +kernel))
      (.cons (isFor_candidateOf (by decide +kernel)) .nil)

/-- Of three candidates with priority two, the first in the first registry is found. A candidate that
leads is found wherever it stands. -/
theorem findAcross?_optimal_of_payments :
    (∃ m, findAcross? paymentRegistries "Given I pay ten" = some m ∧ m.candidate.priority = 2 ∧
      m.candidate.order = 1 ∧ m.values = []) ∧
    ∃ registries' m m',
      BuildAll (payments.map fun d => { d with definitions := d.definitions.reverse }).reverse
        registries' ∧
      findAcross? paymentRegistries "Given I pay nine" = some m ∧
      findAcross? registries' "Given I pay nine" = some m' ∧
      m.candidate = candidateOf .precondition "I pay $n" 2 2 ∧ m'.values = m.values ∧
      ∃ d, payments[0]? = some d ∧ d.Share m.candidate m'.candidate := by
  obtain ⟨-, -, hfind, -, -⟩ := findAcross?_optimal buildAll_payments "Given I pay ten"
  obtain ⟨-, -, -, -, hleads⟩ := findAcross?_optimal buildAll_payments "Given I pay nine"
  constructor
  · have hfirst : ∃ r, paymentRegistries[0]? = some r ∧ (r.find? "Given I pay ten").map
        (fun m => (m.candidate.priority, m.candidate.order, m.values)) = some (2, 1, []) :=
      ⟨_, rfl, by decide +kernel⟩
    have hall : ∀ r ∈ paymentRegistries, ∀ n ∈ r.find? "Given I pay ten",
        n.candidate.priority = 2 := by
      decide +kernel
    obtain ⟨r, hr, hfirst⟩ := hfirst
    obtain ⟨m, hm, hplace⟩ := Option.map_eq_some_iff.1 hfirst
    simp only [Prod.mk.injEq] at hplace
    refine ⟨m, (hfind m).2 ⟨0, r, hr, hm, fun j r' n hr' hn => ?_⟩, hplace⟩
    have hn := hall r' (List.mem_of_getElem? hr') n hn
    omega
  · have hlower : ∀ x ∈ paymentRegistries.zipIdx, ∀ c ∈ x.1.candidates,
        c.pattern.isMatch (x.1.keywords.withoutStartingWord "Given I pay nine") = true →
          (x.2 = 0 ∧ c.order = 2) ∨ c.priority < 2 := by
      decide +kernel
    have hlead : Leads paymentRegistries "Given I pay nine" 0
        (candidateOf .precondition "I pay $n" 2 2) :=
      ⟨⟨_, rfl, by simp, by decide +kernel⟩, fun j r hr c hc hmatch =>
        hlower (r, j) (List.mk_mem_zipIdx_iff_getElem?.2 hr) c hc hmatch⟩
    have hre : RearrangeAll payments
        (payments.map fun d => { d with definitions := d.definitions.reverse }).reverse := by
      refine ⟨_, ?_, (List.reverse_perm _).symm⟩
      rw [List.forall₂_map_right_iff, List.forall₂_same]
      exact fun d _ => ⟨rfl, rfl, List.reverse_perm _, rfl⟩
    obtain ⟨registries', m, m', hbuild, hm, hm', hc, hvalues, hshare⟩ := hleads 0 _ hlead _ hre
    exact ⟨registries', m, m', hbuild, hm, hm', hc, hvalues, hshare⟩

end Registry

end PlainStory
