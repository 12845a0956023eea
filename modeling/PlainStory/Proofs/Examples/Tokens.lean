import PlainStory.Examples.Substitution
import PlainStory.Proofs.Examples.Reading

/-!
# Tokens in a text

What substituting a row does to a text that is put together from literals and tokens. A literal holds
no opening bracket, and the name of a token holds neither brackets nor blanks. The main statements are
that each piece comes out on its own, whatever the values are and whatever stands next to them, and
that of the headers of a table just those can be named by a token that hold no blank.
-/

namespace PlainStory.Row

variable {name s : Text}

/-! ### Names -/

/-- What the name of a token can be. -/
structure IsName (name : Text) : Prop where
  ne_nil : name ≠ []
  no_open : '<' ∉ name
  no_close : '>' ∉ name
  no_blank : ∀ c ∈ name, Text.isBlank c = false

theorem isNameChar_iff {c : Char} :
    isNameChar c = true ↔ c ≠ '<' ∧ c ≠ '>' ∧ Text.isBlank c = false := by
  simp [isNameChar, and_assoc]

theorem IsName.isNameChar (h : IsName name) : ∀ c ∈ name, Row.isNameChar c = true := fun c hc =>
  isNameChar_iff.2 ⟨fun he => h.no_open (he ▸ hc), fun he => h.no_close (he ▸ hc), h.no_blank c hc⟩

theorem isName_iff : IsName name ↔ name ≠ [] ∧ name.all Row.isNameChar = true := by
  constructor
  · exact fun h => ⟨h.ne_nil, List.all_eq_true.2 h.isNameChar⟩
  · rintro ⟨hne, hall⟩
    have hchar : ∀ c ∈ name, c ≠ '<' ∧ c ≠ '>' ∧ Text.isBlank c = false := fun c hc =>
      isNameChar_iff.1 (List.all_eq_true.1 hall c hc)
    exact ⟨hne, fun h => (hchar _ h).1 rfl, fun h => (hchar _ h).2.1 rfl,
      fun c hc => (hchar c hc).2.2⟩

instance (name : Text) : Decidable (IsName name) := decidable_of_iff _ isName_iff.symm

theorem token?_of_isName (h : IsName name) (rest : Text) :
    token? (name ++ '>' :: rest) = some (name, rest) := by
  have hclose : ∀ c ∈ ('>' :: rest).head?, isNameChar c = false := fun c hc =>
    Option.some.inj hc ▸ rfl
  unfold token?
  rw [Text.takeWhile_append_eq h.isNameChar hclose, Text.dropWhile_append_eq h.isNameChar hclose]
  obtain ⟨c, cs, rfl⟩ := List.exists_cons_of_ne_nil h.ne_nil
  rfl

/-- A text with a character in it that no name has is not the beginning of a token, unless it holds the
closing bracket. -/
theorem token?_eq_none (hclose : '>' ∉ s) (hs : ∃ c ∈ s, isNameChar c = false) (rest : Text) :
    token? (s ++ rest) = none := by
  obtain ⟨run, more, rfl, hrun, hmore⟩ := Text.exists_run isNameChar s
  cases more with
  | nil =>
    obtain ⟨c, hc, hname⟩ := hs
    rw [List.append_nil] at hc
    cases (hrun c hc).symm.trans hname
  | cons d ds =>
    have hd : ∀ c ∈ (d :: (ds ++ rest)).head?, isNameChar c = false := hmore
    have hne : d ≠ '>' := fun he =>
      hclose (he ▸ List.mem_append_right _ List.mem_cons_self)
    rw [List.append_assoc, List.cons_append]
    unfold token?
    rw [Text.takeWhile_append_eq hrun hd, Text.dropWhile_append_eq hrun hd]
    split
    · next heq => exact absurd (List.cons.inj heq).1 hne
    · rfl

/-! ### Piece by piece -/

variable (r : Row)

@[simp] theorem substitute_nil : r.substitute [] = [] := by rw [substitute]

/-- What is in front of the first opening bracket stays. -/
theorem substitute_append (hs : '<' ∉ s) (t : Text) :
    r.substitute (s ++ t) = s ++ r.substitute t := by
  induction s with
  | nil => rfl
  | cons c cs ih =>
    rw [List.mem_cons, not_or] at hs
    rw [List.cons_append, substitute, if_neg (Ne.symm hs.1), ih hs.2, List.cons_append]

theorem substitute_eq_self (hs : '<' ∉ s) : r.substitute s = s := by
  have h := r.substitute_append hs []
  rwa [substitute_nil, List.append_nil] at h

theorem substitute_token (h : IsName name) (rest : Text) :
    r.substitute ('<' :: (name ++ '>' :: rest)) = r.valueOfToken name ++ r.substitute rest := by
  rw [substitute, if_pos rfl]
  split
  · next name' rest' heq =>
    rw [token?_of_isName h] at heq
    obtain ⟨rfl, rfl⟩ := Prod.mk.inj (Option.some.inj heq)
    rfl
  · next heq => cases (token?_of_isName h rest).symm.trans heq

/-- An opening bracket stays where no token begins. -/
theorem substitute_open (h : token? s = none) :
    r.substitute ('<' :: s) = '<' :: r.substitute s := by
  rw [substitute, if_pos rfl]
  split
  · next heq => cases heq.symm.trans h
  · rfl

/-! ### Pieces -/

/-- A piece of a text. -/
inductive Piece where
  | literal (s : Text) (h : '<' ∉ s)
  | token (name : Text) (h : IsName name)

namespace Piece

def text : Piece → Text
  | literal s _ => s
  | token name _ => '<' :: name ++ ['>']

/-- What stands for a piece once the row is substituted: the value for a token that names a column, else
the piece itself. -/
def filled (r : Row) : Piece → Text
  | literal s _ => s
  | token name h => (r.get? name).getD (token name h).text

end Piece

theorem substitute_piece (p : Piece) (rest : Text) :
    r.substitute (p.text ++ rest) = p.filled r ++ r.substitute rest := by
  cases p with
  | literal s h => exact r.substitute_append h rest
  | token name h =>
    have htext : (Piece.token name h).text ++ rest = '<' :: (name ++ '>' :: rest) := by
      rw [Piece.text, List.cons_append, List.cons_append, List.append_assoc]
      rfl
    rw [htext, r.substitute_token h]
    rfl

/-- Substituting a row into pieces replaces each token on its own: literals and tokens of other names
stay, and values are taken over as they are. -/
theorem substitute_pieces (pieces : List Piece) :
    r.substitute (pieces.flatMap Piece.text) = pieces.flatMap (Piece.filled r) := by
  induction pieces with
  | nil => exact r.substitute_nil
  | cons p ps ih => rw [List.flatMap_cons, substitute_piece, ih, List.flatMap_cons]

/-! ### Headers of a table -/

theorem exists_get?_of_mem_columns {column : Text} (h : column ∈ r.columns) :
    ∃ v, r.get? column = some v := by
  obtain ⟨cell, hcell, rfl⟩ := List.mem_map.1 h
  rw [← Option.isSome_iff_exists, get?, List.lookup_isSome_iff]
  exact ⟨cell, hcell, beq_self_eq_true cell.1⟩

/-- Each row of a table that was read has a value for each header. -/
theorem exists_get?_of_mem_headers {text header : Text} {r : Row}
    (hr : r ∈ (Table.ofText text).rows) (hheader : header ∈ (Table.ofText text).headers) :
    ∃ v, r.get? header = some v := by
  obtain ⟨cells, -, rfl⟩ := (Table.wellFormed_ofText text).rows r hr
  refine exists_get?_of_mem_columns _ ?_
  rw [(Table.aligns_ofPairs _ cells).columns, List.mem_dedup]
  exact hheader

/-- What stands in brackets and holds a blank stays as it is. -/
theorem substitute_of_blank {a b : Text} (ha : '<' ∉ a) (hb : '<' ∉ b) (hopen : '<' ∉ name)
    (hclose : '>' ∉ name) (hblank : ∃ c ∈ name, Text.isBlank c = true) :
    r.substitute (a ++ '<' :: (name ++ '>' :: b)) = a ++ '<' :: (name ++ '>' :: b) := by
  have hno : token? (name ++ '>' :: b) = none := by
    obtain ⟨c, hc, hcb⟩ := hblank
    exact token?_eq_none hclose ⟨c, hc, by simp [isNameChar, hcb]⟩ _
  have hrest : '<' ∉ name ++ '>' :: b := by
    rw [List.mem_append, List.mem_cons, not_or, not_or]
    exact ⟨hopen, by decide, hb⟩
  rw [r.substitute_append ha, r.substitute_open hno, r.substitute_eq_self hrest]

/-- A token names a header of a table, and its value is substituted, exactly where the header holds no
blank. A header with a blank in it stays in its brackets, so only a value that is the same text comes
out there. -/
theorem substitute_header {text header a b : Text} {r : Row} (hr : r ∈ (Table.ofText text).rows)
    (hheader : header ∈ (Table.ofText text).headers) (hne : header ≠ []) (hopen : '<' ∉ header)
    (hclose : '>' ∉ header) (ha : '<' ∉ a) (hb : '<' ∉ b) :
    let step := a ++ '<' :: (header ++ '>' :: b)
    ∃ v, r.get? header = some v ∧
      (r.substitute step = a ++ v ++ b ↔
        (∀ c ∈ header, Text.isBlank c = false) ∨ v = '<' :: header ++ ['>']) ∧
      ((∃ c ∈ header, Text.isBlank c = true) → r.substitute step = step) := by
  intro step
  obtain ⟨v, hv⟩ := exists_get?_of_mem_headers hr hheader
  have hkept := r.substitute_of_blank ha hb hopen hclose
  refine ⟨v, hv, ?_, hkept⟩
  by_cases hblank : ∃ c ∈ header, Text.isBlank c = true
  · have hnot : ¬ ∀ c ∈ header, Text.isBlank c = false := by simpa using hblank
    have hstep : a ++ '<' :: (header ++ '>' :: b) = a ++ ('<' :: header ++ ['>']) ++ b := by simp
    rw [hkept hblank, or_iff_right hnot, hstep, List.append_left_inj, List.append_right_inj]
    exact eq_comm
  · have hname : ∀ c ∈ header, Text.isBlank c = false := by simpa using hblank
    have hvalue : r.valueOfToken header = v := by rw [valueOfToken, hv, Option.getD_some]
    rw [r.substitute_append ha, r.substitute_token ⟨hne, hopen, hclose, hname⟩, hvalue,
      r.substitute_eq_self hb, List.append_assoc]
    exact iff_of_true rfl (.inl hname)

/-- A header of other characters than letters, with a value that is a token of another one. -/
theorem substitute_header_of_odd_name :
    let table := Table.ofText "| name | age(*).in-$ |\n| Ann | <name> |"
    let row := ofPairs [("name", "Ann"), ("age(*).in-$", "<name>")]
    let header : Text := "age(*).in-$"
    table.rows = [row] ∧ header ∈ table.headers ∧ header ≠ [] ∧ '<' ∉ header ∧ '>' ∉ header ∧
      '<' ∉ ("Given " : Text) ∧ '<' ∉ (" > 3" : Text) ∧
      row.substitute "Given <age(*).in-$> > 3" = ("Given <name> > 3" : Text) := by
  intro table row header
  have hcells : (Table.dataLines "| name | age(*).in-$ |\n| Ann | <name> |").map Table.cellsOf =
      ([["name", "age(*).in-$"], ["Ann", "<name>"]] : List (List Text)) := by decide +kernel
  have htable : table = _ := Table.ofText_eq _
  rw [hcells] at htable
  have hrows : table.rows = [row] := by
    rw [htable]
    rfl
  have hheader : header ∈ table.headers := by decide +kernel
  have hname : IsName header := by decide +kernel
  have hne : header ≠ [] := hname.ne_nil
  have hopen : '<' ∉ header := hname.no_open
  have hclose : '>' ∉ header := hname.no_close
  have ha : '<' ∉ ("Given " : Text) := by decide
  have hb : '<' ∉ (" > 3" : Text) := by decide
  have hrow : row ∈ table.rows := hrows ▸ List.mem_singleton_self row
  obtain ⟨v, hv, hvalue, -⟩ := substitute_header hrow hheader hne hopen hclose ha hb
  have hplace : (["name", header] : List Text)[1]? = some header := rfl
  have hcell : row.get? header = some "<name>".toList :=
    Table.get?_ofPairs_alignCells hplace (by decide) ["Ann", "<name>"]
  obtain rfl := Option.some.inj (hcell.symm.trans hv)
  exact ⟨hrows, hheader, hne, hopen, hclose, ha, hb, hvalue.2 (.inl hname.no_blank)⟩

/-- A header of two words is no name, so its column is not filled in. -/
theorem substitute_ne_of_header_of_two_words :
    let table := Table.ofText "|first name|\n|Ann|"
    let row := ofPairs [("first name", "Ann")]
    table.rows = [row] ∧ table.headers = ["first name".toList] ∧
      row.get? "first name" = some "Ann".toList ∧
      row.substitute "Given <first name>" = ("Given <first name>" : Text) ∧
      row.substitute "Given <first name>" ≠ ("Given Ann" : Text) := by
  intro table row
  have hcells : (Table.dataLines "|first name|\n|Ann|").map Table.cellsOf =
      ([["first name"], ["Ann"]] : List (List Text)) := by decide +kernel
  have htable : table = _ := Table.ofText_eq _
  rw [hcells] at htable
  have hplace : (["first name"] : List Text)[0]? = some "first name".toList := rfl
  have hcell : row.get? "first name" = some "Ann".toList :=
    Table.get?_ofPairs_alignCells hplace (List.not_mem_nil) ["Ann"]
  have hkept : row.substitute "Given <first name>" = ("Given <first name>" : Text) := by
    have hblank : ∃ c ∈ ("first name" : Text), Text.isBlank c = true := ⟨' ', by decide, rfl⟩
    exact row.substitute_of_blank (a := "Given ") (b := []) (by decide) (by decide) (by decide)
      (by decide) hblank
  refine ⟨by rw [htable]; rfl, by rw [htable]; rfl, hcell, hkept, ?_⟩
  rw [hkept]
  decide

end PlainStory.Row
