import Mathlib.Data.Prod.Lex
import PlainStory.Proofs.Step.Lookup

/-!
# Ranks of matches

A step can match candidates of several registries. Matches are ranked by their priority, the number of
their registry and their place in it, and no two matches have one rank where the candidates of each
registry know their places. The match of the first rank is found, and it is the best of those that the
registries find each by itself.
-/

namespace PlainStory

/-! ### The first of the best -/

section Best

variable {α β : Type} [LinearOrder β] {better : α → α → Bool} {key : α → β}
variable (hkey : ∀ x y, better x y = true ↔ key x < key y)
include hkey

theorem key_le_of_best {xs : List α} {x : α} (h : best better xs = some x) :
    x ∈ xs ∧ ∀ y ∈ xs, key x ≤ key y := by
  induction xs using List.reverseRecOn generalizing x with
  | nil => exact absurd h nofun
  | append_singleton xs z ih =>
    rw [best_concat] at h
    cases hb : best better xs with
    | none =>
      obtain rfl := (best_eq_none_iff better xs).1 hb
      have hz : z = x := by simpa using h
      subst hz
      simp
    | some b =>
      obtain ⟨hmem, hle⟩ := ih hb
      rw [hb] at h
      by_cases hzb : key z < key b
      · have hz : z = x := by simpa [(hkey z b).2 hzb] using h
        subst hz
        refine ⟨by simp, fun y hy => ?_⟩
        rcases List.mem_append.1 hy with hy | hy
        · exact le_trans (le_of_lt hzb) (hle y hy)
        · rw [List.mem_singleton.1 hy]
      · have hnot : better z b = false := by
          rw [← Bool.not_eq_true, hkey]
          exact hzb
        have hx : b = x := by simpa [hnot] using h
        subst hx
        refine ⟨by simp [hmem], fun y hy => ?_⟩
        rcases List.mem_append.1 hy with hy | hy
        · exact hle y hy
        · rw [List.mem_singleton.1 hy]
          exact not_lt.1 hzb

/-- Where no two elements have one key, the best element is the one with the least key. -/
theorem best_eq_some_iff {xs : List α} (hinj : ∀ x ∈ xs, ∀ y ∈ xs, key x = key y → x = y) {x : α} :
    best better xs = some x ↔ x ∈ xs ∧ ∀ y ∈ xs, key x ≤ key y := by
  refine ⟨key_le_of_best hkey, ?_⟩
  rintro ⟨hx, hle⟩
  cases hb : best better xs with
  | none =>
    rw [(best_eq_none_iff better xs).1 hb] at hx
    exact absurd hx nofun
  | some b =>
    obtain ⟨hmem, hbest⟩ := key_le_of_best hkey hb
    rw [hinj b hmem x hx (le_antisymm (hbest x hx) (hle b hmem))]

end Best

/-! ### Ranks -/

variable {W : Type}

namespace Match

/-- What matches are compared by, each given with the number of its registry; a lesser rank is
better. -/
def rank (m : Nat × Match W) : ℤ ×ₗ ℕ ×ₗ ℕ :=
  toLex (-m.2.candidate.priority, toLex (m.1, m.2.candidate.order))

theorem betterAcross_iff (m n : Nat × Match W) :
    betterAcross m n = true ↔ rank m < rank n := by
  simp only [betterAcross, rank, Prod.Lex.toLex_lt_toLex, Bool.or_eq_true, Bool.and_eq_true,
    decide_eq_true_eq, Int.neg_lt_neg_iff, Int.neg_inj]
  grind

/-- In one registry, matches are compared as in the first of several. -/
theorem better_iff (m n : Match W) : better m n = true ↔ rank (0, m) < rank (0, n) := by
  rw [← betterAcross_iff, better, betterAcross]
  simp

theorem rank_le_iff {i j : Nat} {m n : Match W} :
    rank (i, m) ≤ rank (j, n) ↔
      n.candidate.priority < m.candidate.priority ∨
        n.candidate.priority = m.candidate.priority ∧
          (i < j ∨ i = j ∧ m.candidate.order ≤ n.candidate.order) := by
  simp only [rank, Prod.Lex.toLex_le_toLex, Int.neg_lt_neg_iff, Int.neg_inj]
  grind

end Match

namespace Registry

/-- Whether each candidate of a registry knows its place. -/
def Ordered (r : Registry W) : Prop :=
  ∀ (i : Nat) (c : Candidate W), r.candidates[i]? = some c → c.order = i

theorem Ordered.getElem?_order {r : Registry W} (h : r.Ordered) {c : Candidate W}
    (hc : c ∈ r.candidates) : r.candidates[c.order]? = some c := by
  obtain ⟨i, hi⟩ := List.mem_iff_getElem?.1 hc
  rw [h i c hi, hi]

theorem Ordered.eq_of_order_eq {r : Registry W} (h : r.Ordered) {b c : Candidate W}
    (hb : b ∈ r.candidates) (hc : c ∈ r.candidates) (hbc : b.order = c.order) : b = c := by
  have hplace := h.getElem?_order hb
  rw [hbc, h.getElem?_order hc] at hplace
  exact (Option.some.inj hplace).symm

/-! ### Matches of registries -/

theorem mem_matchesOf {r : Registry W} {step : Text} {m : Match W} :
    m ∈ r.matchesOf step ↔ m.candidate ∈ r.candidates ∧
      m.candidate.pattern.values? (r.keywords.withoutStartingWord step) = some m.values := by
  simp only [matchesOf, List.mem_filterMap, Option.map_eq_some_iff]
  constructor
  · rintro ⟨c, hc, values, hvalues, rfl⟩
    exact ⟨hc, hvalues⟩
  · rintro ⟨hc, hvalues⟩
    exact ⟨m.candidate, hc, m.values, hvalues, rfl⟩

/-- A candidate matches a step if it is the candidate of a match. -/
theorem exists_match_iff {r : Registry W} {step : Text} {c : Candidate W} (hc : c ∈ r.candidates) :
    c.pattern.isMatch (r.keywords.withoutStartingWord step) = true ↔
      ∃ m ∈ r.matchesOf step, m.candidate = c := by
  rw [Pattern.isMatch_eq_isSome_values?, Option.isSome_iff_exists]
  constructor
  · rintro ⟨values, hvalues⟩
    exact ⟨⟨c, values⟩, mem_matchesOf.2 ⟨hc, hvalues⟩, rfl⟩
  · rintro ⟨m, hm, rfl⟩
    exact ⟨m.values, (mem_matchesOf.1 hm).2⟩

theorem matchesAcross_eq (step : Text) (index : Nat) (registries : List (Registry W)) :
    matchesAcross step index registries =
      (registries.zipIdx index).flatMap fun (r, i) => (r.matchesOf step).map fun m => (i, m) := by
  induction registries generalizing index with
  | nil => rfl
  | cons r registries ih => rw [matchesAcross, ih, List.zipIdx_cons, List.flatMap_cons]

theorem mem_matchesAcross {step : Text} {registries : List (Registry W)} {i : Nat} {m : Match W} :
    (i, m) ∈ matchesAcross step 0 registries ↔
      ∃ r, registries[i]? = some r ∧ m ∈ r.matchesOf step := by
  rw [matchesAcross_eq, List.mem_flatMap]
  constructor
  · rintro ⟨⟨r, j⟩, hr, hm⟩
    obtain ⟨n, hn, he⟩ := List.mem_map.1 hm
    obtain ⟨rfl, rfl⟩ := Prod.mk.injEq .. ▸ he
    exact ⟨r, List.mk_mem_zipIdx_iff_getElem?.1 hr, hn⟩
  · rintro ⟨r, hr, hm⟩
    exact ⟨(r, i), List.mk_mem_zipIdx_iff_getElem?.2 hr, List.mem_map_of_mem hm⟩

/-! ### The match that is found -/

theorem eq_of_rank_eq {registries : List (Registry W)} (hordered : ∀ r ∈ registries, r.Ordered)
    {step : Text} {x y : Nat × Match W} (hx : x ∈ matchesAcross step 0 registries)
    (hy : y ∈ matchesAcross step 0 registries) (h : Match.rank x = Match.rank y) : x = y := by
  obtain ⟨i, m⟩ := x
  obtain ⟨j, n⟩ := y
  obtain ⟨r, hr, hm⟩ := mem_matchesAcross.1 hx
  obtain ⟨r', hr', hn⟩ := mem_matchesAcross.1 hy
  have hplaces : i = j ∧ m.candidate.order = n.candidate.order := by
    simp only [Match.rank, toLex_inj, Prod.mk.injEq] at h
    exact h.2
  obtain ⟨rfl, horder⟩ := hplaces
  obtain rfl : r = r' := Option.some.inj (hr.symm.trans hr')
  obtain ⟨hmc, hmv⟩ := mem_matchesOf.1 hm
  obtain ⟨hnc, hnv⟩ := mem_matchesOf.1 hn
  have hcandidate : m.candidate = n.candidate :=
    (hordered r (List.mem_of_getElem? hr)).eq_of_order_eq hmc hnc horder
  have hvalues : m.values = n.values := by
    rw [hcandidate, hnv] at hmv
    exact (Option.some.inj hmv).symm
  cases m
  cases n
  simp_all

/-- The match of the first rank is found. -/
theorem findAcross?_eq_some_iff {registries : List (Registry W)}
    (hordered : ∀ r ∈ registries, r.Ordered) {step : Text} {m : Match W} :
    findAcross? registries step = some m ↔
      ∃ i r, registries[i]? = some r ∧ m ∈ r.matchesOf step ∧
        ∀ (j : Nat) (r' : Registry W) (n : Match W), registries[j]? = some r' →
          n ∈ r'.matchesOf step → Match.rank (i, m) ≤ Match.rank (j, n) := by
  have hbest := fun x => best_eq_some_iff Match.betterAcross_iff (x := x)
    fun x (hx : x ∈ matchesAcross step 0 registries) y hy => eq_of_rank_eq hordered hx hy
  rw [findAcross?, Option.map_eq_some_iff]
  constructor
  · rintro ⟨⟨i, n⟩, hx, rfl⟩
    obtain ⟨hmem, hle⟩ := (hbest _).1 hx
    obtain ⟨r, hr, hn⟩ := mem_matchesAcross.1 hmem
    exact ⟨i, r, hr, hn, fun j r' n' hr' hn' => hle (j, n') (mem_matchesAcross.2 ⟨r', hr', hn'⟩)⟩
  · rintro ⟨i, r, hr, hm, hle⟩
    refine ⟨(i, m), (hbest _).2 ⟨mem_matchesAcross.2 ⟨r, hr, hm⟩, ?_⟩, rfl⟩
    rintro ⟨j, n⟩ hn
    obtain ⟨r', hr', hn⟩ := mem_matchesAcross.1 hn
    exact hle j r' n hr' hn

theorem findAcross?_singleton (r : Registry W) (step : Text) :
    findAcross? [r] step = r.find? step := by
  have hbetter : ∀ m n : Match W, Match.betterAcross (0, m) (0, n) = Match.better m n := by
    intro m n
    rw [Bool.eq_iff_iff, Match.betterAcross_iff, Match.better_iff]
  rw [findAcross?, matchesAcross, matchesAcross, List.append_nil, best_map hbetter, Option.map_map]
  exact Option.map_id'

theorem find?_eq_some_iff {r : Registry W} (hr : r.Ordered) {step : Text} {m : Match W} :
    r.find? step = some m ↔ m ∈ r.matchesOf step ∧
      ∀ n ∈ r.matchesOf step, Match.rank (0, m) ≤ Match.rank (0, n) := by
  rw [← findAcross?_singleton, findAcross?_eq_some_iff (by simpa using hr)]
  constructor
  · rintro ⟨i, r', hr', hm, hle⟩
    cases i with
    | zero =>
      obtain rfl : r = r' := by simpa using hr'
      exact ⟨hm, fun n hn => hle 0 r n rfl hn⟩
    | succ i => exact absurd hr' (by simp)
  · rintro ⟨hm, hle⟩
    refine ⟨0, r, rfl, hm, fun j r' n hr' hn => ?_⟩
    cases j with
    | zero =>
      obtain rfl : r = r' := by simpa using hr'
      exact hle n hn
    | succ j => exact absurd hr' (by simp)

theorem exists_find?_eq_some {r : Registry W} {step : Text} {n : Match W}
    (hn : n ∈ r.matchesOf step) : ∃ m, r.find? step = some m := by
  rw [← Option.isSome_iff_exists, Option.isSome_iff_ne_none, find?, Ne, best_eq_none_iff]
  rintro hnil
  rw [hnil] at hn
  exact absurd hn nofun

/-- Of the matches that the registries find, the one of highest priority is found, and the earliest of
those. -/
theorem findAcross?_eq_some_iff_find? {registries : List (Registry W)}
    (hordered : ∀ r ∈ registries, r.Ordered) {step : Text} {m : Match W} :
    findAcross? registries step = some m ↔
      ∃ i r, registries[i]? = some r ∧ r.find? step = some m ∧
        ∀ (j : Nat) (r' : Registry W) (n : Match W), registries[j]? = some r' →
          r'.find? step = some n →
            n.candidate.priority < m.candidate.priority ∨
              n.candidate.priority = m.candidate.priority ∧ i ≤ j := by
  have horder : ∀ {i : Nat} {r : Registry W}, registries[i]? = some r → r.Ordered :=
    fun hr => hordered _ (List.mem_of_getElem? hr)
  rw [findAcross?_eq_some_iff hordered]
  constructor
  · rintro ⟨i, r, hr, hm, hle⟩
    refine ⟨i, r, hr, (find?_eq_some_iff (horder hr)).2 ⟨hm, fun n hn => ?_⟩,
      fun j r' n hr' hn => ?_⟩
    · have := Match.rank_le_iff.1 (hle i r n hr hn)
      rw [Match.rank_le_iff]
      omega
    · have hn' := ((find?_eq_some_iff (horder hr')).1 hn).1
      have := Match.rank_le_iff.1 (hle j r' n hr' hn')
      omega
  · rintro ⟨i, r, hr, hfound, hle⟩
    obtain ⟨hm, hbest⟩ := (find?_eq_some_iff (horder hr)).1 hfound
    refine ⟨i, r, hr, hm, fun j r' n hr' hn => ?_⟩
    -- what its own registry finds is no worse than `n`, and `m` is no worse than that
    obtain ⟨f, hf⟩ := exists_find?_eq_some hn
    have hfn := Match.rank_le_iff.1 (((find?_eq_some_iff (horder hr')).1 hf).2 n hn)
    have hmf := hle j r' f hr' hf
    rw [Match.rank_le_iff]
    by_cases hij : i = j
    · subst hij
      obtain rfl : r = r' := Option.some.inj (hr.symm.trans hr')
      have := Match.rank_le_iff.1 (hbest n hn)
      omega
    · omega

end Registry

end PlainStory
