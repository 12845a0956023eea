import Mathlib.Data.List.Pairwise
import PlainStory.Proofs.Text.Ranged
import PlainStory.Story.Reader

/-!
# Clauses by places

A narrative whose clauses are read from the bytes of its text. The words are searched for one behind
the other, and each clause is what stands from the end of its word up to the next word. The places of
the words are in order and within the text, where characters begin and end, so no clause is read from a
place out of range, and what is read is the narrative.
-/

namespace PlainStory

open Ranged

namespace Narrative

/-- The places of words in a text from a byte on, each searched for behind the one before: the first
byte of the word and the byte behind it. -/
def boundsFrom (text : Text) (start : Nat) : List Text → Ranged (Option (List (Nat × Nat)))
  | [] => return some []
  | word :: words => do
    let rest ← Text.sliceBytes text start (Text.size text)
    match Text.cut? word rest with
    | none => return none
    | some parts =>
      let place := start + Text.size parts.1
      let bounds? ← boundsFrom text (place + Text.size word) words
      return bounds?.map ((place, place + Text.size word) :: ·)

/-- The text behind the word at one of the bounds, up to the word at the next one. -/
def clauseAt (text : Text) (bounds : List (Nat × Nat)) (i : Nat) : Ranged Text := do
  let bound ← element bounds i
  let stop := (bounds[i + 1]?.map Prod.fst).getD (Text.size text)
  return Text.trim (← Text.sliceBytes text bound.2 stop)

def clausesAt (first second third text : Text) : Ranged (Option (Text × Text × Text)) := do
  match ← boundsFrom text 0 [first, second, third] with
  | none => return none
  | some bounds =>
    let a ← clauseAt text bounds 0
    let b ← clauseAt text bounds 1
    let c ← clauseAt text bounds 2
    return some (a, b, c)

def atPlaces (k : Keywords) (text : Text) : Ranged Narrative := do
  match ← clausesAt (k.token .inOrderTo) (k.token .asA) (k.token .iWantTo) text with
  | some clauses => return withPurpose clauses.1 clauses.2.1 clauses.2.2
  | none =>
    match ← clausesAt (k.token .asA) (k.token .iWantTo) (k.token .soThat) text with
    | some clauses => return withBenefit clauses.1 clauses.2.1 clauses.2.2
    | none => return empty

/-- The bytes that bounds consist of. -/
def bytesOf (bounds : List (Nat × Nat)) : List Nat := bounds.flatMap fun b => [b.1, b.2]

section

variable {text front rest word : Text} {words : List Text}

theorem boundsFrom_of_cut?_eq_none (htext : text = front ++ rest) (hcut : Text.cut? word rest = none) :
    boundsFrom text (Text.size front) (word :: words) = .ok none := by
  have hslice : Text.sliceBytes text (Text.size front) (Text.size text) = .ok rest :=
    Text.sliceBytes_eq_ok_iff.2 ⟨front, [], by simp [htext], rfl, by simp [htext]⟩
  simp [boundsFrom, hslice, hcut]

theorem boundsFrom_of_cut? (htext : text = front ++ rest) {own more : Text}
    (hcut : Text.cut? word rest = some (own, more)) :
    boundsFrom text (Text.size front) (word :: words) =
      (boundsFrom text (Text.size (front ++ own ++ word)) words).map fun bounds? =>
        bounds?.map ((Text.size (front ++ own), Text.size (front ++ own ++ word)) :: ·) := by
  have hslice : Text.sliceBytes text (Text.size front) (Text.size text) = .ok rest :=
    Text.sliceBytes_eq_ok_iff.2 ⟨front, [], by simp [htext], rfl, by simp [htext]⟩
  simp only [boundsFrom, hslice, hcut, ok_bind, Text.size_append]
  rfl

/-- The places of any words are within any text and in order. -/
theorem exists_boundsFrom (words : List Text) (htext : text = front ++ rest) :
    ∃ bounds?, boundsFrom text (Text.size front) words = .ok bounds? ∧
      ∀ bounds ∈ bounds?,
        (Text.size front :: (bytesOf bounds ++ [Text.size text])).Pairwise (· ≤ ·) := by
  induction words generalizing front rest with
  | nil =>
    refine ⟨some [], rfl, fun bounds hbounds => ?_⟩
    obtain rfl := Option.some.inj hbounds
    simp [bytesOf, htext]
  | cons word words ih =>
    cases hcut : Text.cut? word rest with
    | none => exact ⟨none, boundsFrom_of_cut?_eq_none htext hcut, by simp⟩
    | some parts =>
      obtain ⟨own, more⟩ := parts
      have hmore : text = front ++ own ++ word ++ more := by
        rw [htext, Text.eq_of_cut? hcut]
        simp only [List.append_assoc]
      obtain ⟨bounds?, hbounds?, hordered⟩ := ih hmore
      refine ⟨_, by rw [boundsFrom_of_cut? htext hcut, hbounds?]; rfl, fun bounds hbounds => ?_⟩
      obtain ⟨later, hlater, rfl⟩ := Option.map_eq_some_iff.1 hbounds
      have hrest := hordered later hlater
      rw [bytesOf, List.flatMap_cons, List.append_assoc, List.cons_append, List.cons_append,
        List.nil_append, List.pairwise_cons_cons_iff_of_trans, List.pairwise_cons_cons_iff_of_trans]
      exact ⟨by rw [Text.size_append]; omega, by rw [Text.size_append _ word]; omega, hrest⟩

end

/-- A clause is read from the end of its word to the next word, or to the end of the text. -/
theorem clauseAt_eq {text front clause back : Text} {bounds : List (Nat × Nat)} {i place : Nat}
    (htext : text = front ++ clause ++ back) (hbound : bounds[i]? = some (place, Text.size front))
    (hstop : (bounds[i + 1]?.map Prod.fst).getD (Text.size text) = Text.size (front ++ clause)) :
    clauseAt text bounds i = .ok (Text.trim clause) := by
  have hslice : Text.sliceBytes text (Text.size front) (Text.size (front ++ clause)) = .ok clause :=
    Text.sliceBytes_eq_ok_iff.2 ⟨front, back, htext, rfl, Text.size_append front clause⟩
  simp only [clauseAt, element, hbound, hstop, hslice, ok_bind, pure_eq_ok]

/-- The clauses that are read at the places of the words are those between the words. -/
theorem clausesAt_eq (first second third text : Text) :
    clausesAt first second third text = .ok (clauses? first second third text) := by
  have hstart : boundsFrom text 0 [first, second, third] =
      boundsFrom text (Text.size []) [first, second, third] := rfl
  rw [clausesAt, clauses?, hstart]
  cases h₁ : Text.cut? first text with
  | none => rw [boundsFrom_of_cut?_eq_none (List.nil_append text).symm h₁]; rfl
  | some parts =>
    obtain ⟨front, rest₁⟩ := parts
    have ht₁ : text = [] ++ front ++ first ++ rest₁ := Text.eq_of_cut? h₁
    rw [boundsFrom_of_cut? (List.nil_append text).symm h₁]
    simp only [Option.bind_eq_bind, Option.bind_some]
    cases h₂ : Text.cut? second rest₁ with
    | none => rw [boundsFrom_of_cut?_eq_none ht₁ h₂]; rfl
    | some parts =>
      obtain ⟨clause₁, rest₂⟩ := parts
      have ht₂ : text = [] ++ front ++ first ++ clause₁ ++ second ++ rest₂ := by
        rw [ht₁, Text.eq_of_cut? h₂]
        simp only [List.append_assoc]
      rw [boundsFrom_of_cut? ht₁ h₂]
      simp only [Option.bind_some]
      cases h₃ : Text.cut? third rest₂ with
      | none => rw [boundsFrom_of_cut?_eq_none ht₂ h₃]; rfl
      | some parts =>
        obtain ⟨clause₂, clause₃⟩ := parts
        have ht₃ : text =
            [] ++ front ++ first ++ clause₁ ++ second ++ clause₂ ++ third ++ clause₃ := by
          rw [ht₂, Text.eq_of_cut? h₃]
          simp only [List.append_assoc]
        rw [boundsFrom_of_cut? ht₂ h₃]
        simp only [boundsFrom, Except.map, pure_eq_ok, ok_bind, Option.map_some]
        have hc₁ : text = [] ++ front ++ first ++ clause₁ ++ (second ++ clause₂ ++ third ++ clause₃) := by
          simp [ht₃]
        have hc₂ : text = [] ++ front ++ first ++ clause₁ ++ second ++ clause₂ ++ (third ++ clause₃) := by
          simp [ht₃]
        have hc₃ : text =
            [] ++ front ++ first ++ clause₁ ++ second ++ clause₂ ++ third ++ clause₃ ++ [] := by
          simp [ht₃]
        rw [clauseAt_eq hc₁ rfl rfl, clauseAt_eq hc₂ rfl rfl, clauseAt_eq hc₃ rfl (by simp [ht₃])]
        rfl

theorem atPlaces_eq (k : Keywords) (text : Text) : atPlaces k text = .ok (ofText k text) := by
  rw [atPlaces, clausesAt_eq, ok_bind, clausesAt_eq, ok_bind, ofText]
  cases clauses? (k.token .inOrderTo) (k.token .asA) (k.token .iWantTo) text with
  | some clauses => rfl
  | none =>
    cases clauses? (k.token .asA) (k.token .iWantTo) (k.token .soThat) text with
    | some clauses => rfl
    | none => rfl

end Narrative

end PlainStory
