import PlainStory.Examples.Table
import PlainStory.Proofs.Text.Lines
import PlainStory.Proofs.Text.Spacing

/-!
# Rendered tables

What comes of a table that is rendered and read again. The cells of a table that was read are trimmed
and hold neither bars nor line feeds, so the line that is rendered for some cells has just these
cells again, unless the first of them starts with two dashes: then the line is a comment. The main
statement is that a table comes back with its headers and with all rows but those.
-/

namespace PlainStory

/-! ### Cells and lines -/

/-- What a cell of a table that was read can be. -/
structure Table.IsCell (c : Text) : Prop where
  trim : Text.trim c = c
  no_bar : '|' ∉ c
  no_newline : '\n' ∉ c

namespace Table

theorem isCell_nil : IsCell [] := ⟨rfl, List.not_mem_nil, List.not_mem_nil⟩

/-- The line that is rendered for some cells, without the line feed at its end. -/
def bars (cells : List Text) : Text := cells.flatMap ('|' :: ·) ++ ['|']

theorem renderCells_eq (cells : List Text) : renderCells cells = bars cells ++ ['\n'] := by
  rw [bars, List.append_assoc]
  rfl

theorem bars_cons (c : Text) (cells : List Text) :
    bars (c :: cells) = '|' :: (c ++ bars cells) := by
  rw [bars, List.flatMap_cons, List.cons_append, List.cons_append, List.append_assoc]
  rfl

/-- The line begins with a bar, and has another one behind each of the cells. -/
theorem bars_eq_cons_join (cells : List Text) :
    bars cells = '|' :: Text.join ['|'] (cells ++ [[]]) := by
  induction cells with
  | nil => rfl
  | cons c cells ih =>
    have hne : cells ++ [[]] ≠ [] := List.append_ne_nil_of_right_ne_nil _ (List.cons_ne_nil _ _)
    rw [bars_cons, ih, List.cons_append, Text.join_cons hne, List.append_assoc]
    rfl

theorem trim_bars (cells : List Text) : Text.trim (bars cells) = bars cells := by
  have hbar : Text.isBlank '|' = false := rfl
  have hstart : Text.trimStart (bars cells) = bars cells := by
    rw [bars_eq_cons_join]
    exact Text.trimStart_eq_self_iff.2 fun c hc => Option.some.inj hc ▸ hbar
  rw [Text.trim, hstart]
  exact Text.trimEnd_concat hbar _

/-- The cells of a line that is rendered are those that it is rendered for. -/
theorem cellsOf_bars {cells : List Text} (h : ∀ c ∈ cells, IsCell c) :
    cellsOf (bars cells) = cells := by
  have hparts : ∀ part ∈ [] :: (cells ++ [[]]), IsCell part := by
    rw [List.forall_mem_cons, List.forall_mem_append, List.forall_mem_singleton]
    exact ⟨isCell_nil, h, isCell_nil⟩
  have hsplit : Text.splitAt '|' (bars cells) = [] :: (cells ++ [[]]) := by
    have hne : cells ++ [[]] ≠ [] := List.append_ne_nil_of_right_ne_nil _ (List.cons_ne_nil _ _)
    have hjoin : bars cells = Text.join ['|'] ([] :: (cells ++ [[]])) := by
      rw [bars_eq_cons_join, Text.join_cons hne]
      rfl
    rw [hjoin]
    exact Text.splitAt_join (List.cons_ne_nil _ _) fun part hpart => (hparts part hpart).no_bar
  have htrim : ([] :: (cells ++ [[]])).map Text.trim = [] :: (cells ++ [[]]) := by
    rw [List.map_congr_left fun part hpart => (hparts part hpart).trim, List.map_id']
  rw [cellsOf, hsplit, htrim, dropFirstEmpty, dropLastEmpty, List.getLast?_concat, if_pos rfl,
    List.dropLast_concat]

/-- Whether the first of some cells starts with two dashes. -/
def startsDashed (cells : List Text) : Bool := cells.head?.any (Text.startsWith "--")

/-- The line that is rendered for some cells is a comment if the first of them starts with two
dashes. -/
theorem isData_bars (cells : List Text) :
    isData (bars cells) = !startsDashed cells := by
  have hne : bars cells ≠ [] := by
    rw [bars_eq_cons_join]
    exact List.cons_ne_nil _ _
  have hdashes : Text.startsWith "|--" (bars cells) = startsDashed cells := by
    cases cells with
    | nil => rfl
    | cons c cells =>
      have hbar : '|' ∉ ("--" : Text) := by decide
      rw [bars_cons, bars_eq_cons_join]
      exact Text.startsWith_append_cons hbar c _
  rw [isData, hdashes, decide_eq_true hne, Bool.true_and]

theorem dropFirstEmpty_subset (cells : List Text) : dropFirstEmpty cells ⊆ cells := by
  fun_cases dropFirstEmpty cells with
  | case1 cells => exact List.subset_cons_self _ _
  | case2 => exact List.Subset.refl _

theorem dropLastEmpty_subset (cells : List Text) : dropLastEmpty cells ⊆ cells := by
  unfold dropLastEmpty
  split
  · exact List.dropLast_subset _
  · exact List.Subset.refl _

/-- The cells of a line are trimmed and hold no bars, and no line feeds where the line has none. -/
theorem isCell_of_mem_cellsOf {line : Text} (hline : '\n' ∉ line) :
    ∀ c ∈ cellsOf line, IsCell c := by
  intro c hc
  obtain ⟨part, hpart, rfl⟩ :=
    List.mem_map.1 (dropFirstEmpty_subset _ (dropLastEmpty_subset _ hc))
  have hmem : ∀ d ∈ Text.trim part, d ∈ line ∧ d ≠ '|' := fun d hd =>
    Text.mem_of_mem_splitAt hpart d (Text.mem_of_mem_trimStart (Text.mem_of_mem_trimEnd hd))
  exact ⟨Text.trim_trim part, fun h => (hmem _ h).2 rfl, fun h => hline (hmem _ h).1⟩

/-! ### Rows -/

/-- Nothing is left out of a list without repetitions. -/
theorem distinctBy_of_nodup {α κ : Type} [BEq κ] [LawfulBEq κ] [Hashable κ] (key : α → κ)
    {xs : List α} (h : (xs.map key).Nodup) : distinctBy key xs = xs := by
  induction xs with
  | nil => rfl
  | cons x xs ih =>
    rw [List.map_cons, List.nodup_cons] at h
    rw [distinctBy_cons, ih h.2, List.filter_eq_self.2]
    intro y hy
    rw [Bool.not_eq_true', beq_eq_false_iff_ne]
    exact fun hxy => h.1 (hxy ▸ List.mem_map_of_mem hy)

theorem cells_ofPairs {pairs : List (Text × Text)} (h : (pairs.map Prod.fst).Nodup) :
    (Row.ofPairs pairs).cells = pairs := by
  have hreverse : (pairs.reverse.map Prod.fst).Nodup := by
    rw [List.map_reverse]
    exact List.pairwise_reverse.2 (h.imp Ne.symm)
  have hcells : (Row.ofPairs pairs).cells = (distinctBy Prod.fst pairs.reverse).reverse := rfl
  rw [hcells, distinctBy_of_nodup _ hreverse, List.reverse_reverse]

theorem map_fst_alignCells (headers cells : List Text) :
    (alignCells headers cells).map Prod.fst = headers := by
  fun_induction alignCells headers cells with
  | case1 cells => rfl
  | case2 h hs ih => rw [List.map_cons, ih]
  | case3 h hs c cs ih => rw [List.map_cons, ih]

theorem of_mem_alignCells {headers cells : List Text} :
    ∀ x ∈ alignCells headers cells, x.2 = [] ∨ x.2 ∈ cells := by
  fun_induction alignCells headers cells with
  | case1 cells => exact List.forall_mem_nil _
  | case2 h hs ih => exact List.forall_mem_cons.2 ⟨.inl rfl, ih⟩
  | case3 h hs c cs ih =>
    refine List.forall_mem_cons.2 ⟨.inr List.mem_cons_self, fun x hx => ?_⟩
    exact (ih x hx).imp_right (List.mem_cons_of_mem c)

/-- The values that stand for some cells stand for themselves. -/
theorem alignCells_map_snd (headers cells : List Text) :
    alignCells headers ((alignCells headers cells).map Prod.snd) = alignCells headers cells := by
  fun_induction alignCells headers cells with
  | case1 cells => rfl
  | case2 h hs ih => rw [List.map_cons, alignCells, ih]
  | case3 h hs c cs ih => rw [List.map_cons, alignCells, ih]

/-! ### Tables that were read -/

/-- What a table that was read can be. -/
structure WellFormed (t : Table) : Prop where
  headers : ∀ h ∈ t.headers, IsCell h
  rows : ∀ r ∈ t.rows, ∃ cells, (∀ c ∈ cells, IsCell c) ∧
    r = Row.ofPairs (alignCells t.headers cells)
  rows_eq_nil : t.headers = [] → t.rows = []

theorem WellFormed.addCells {t : Table} (ht : t.WellFormed) {cells : List Text}
    (hcells : ∀ c ∈ cells, IsCell c) : (t.addCells cells).WellFormed := by
  unfold Table.addCells
  split
  · next hnone =>
    have hrows := ht.rows_eq_nil hnone
    exact ⟨hcells, fun r hr => absurd (hrows ▸ hr) List.not_mem_nil, fun _ => hrows⟩
  · next hsome =>
    refine ⟨ht.headers, ?_, fun hnone => absurd hnone hsome⟩
    exact List.forall_mem_append.2
      ⟨ht.rows, List.forall_mem_singleton.2 ⟨cells, hcells, rfl⟩⟩

theorem WellFormed.addLine {t : Table} (ht : t.WellFormed) {line : Text} (hline : '\n' ∉ line) :
    (t.addLine line).WellFormed := by
  have htrim : '\n' ∉ Text.trim line := fun h =>
    hline (Text.mem_of_mem_trimStart (Text.mem_of_mem_trimEnd h))
  unfold Table.addLine
  dsimp only
  split
  · exact ht.addCells (isCell_of_mem_cellsOf htrim)
  · exact ht

theorem wellFormed_ofText (text : Text) : (ofText text).WellFormed := by
  have hfold : ∀ (ls : List Text) (t : Table), (∀ l ∈ ls, '\n' ∉ l) → t.WellFormed →
      (ls.foldl addLine t).WellFormed := by
    intro ls
    induction ls with
    | nil => exact fun t _ ht => ht
    | cons l ls ih =>
      intro t hls ht
      rw [List.forall_mem_cons] at hls
      exact ih _ hls.2 (ht.addLine hls.1)
  refine hfold _ _ Text.newline_not_mem_lines ⟨?_, ?_, fun _ => rfl⟩
  · exact List.forall_mem_nil _
  · exact List.forall_mem_nil _

namespace WellFormed

variable {t : Table} (ht : t.WellFormed)
include ht

/-- A row is as it comes from its own values. -/
theorem ofPairs_values (hnodup : t.headers.Nodup) {r : Row} (hr : r ∈ t.rows) :
    Row.ofPairs (alignCells t.headers r.values) = r ∧ ∀ v ∈ r.values, IsCell v := by
  obtain ⟨cells, hcells, rfl⟩ := ht.rows r hr
  have hvalues : (Row.ofPairs (alignCells t.headers cells)).values =
      (alignCells t.headers cells).map Prod.snd := by
    rw [Row.values, cells_ofPairs]
    rwa [map_fst_alignCells]
  rw [hvalues, alignCells_map_snd]
  refine ⟨rfl, List.forall_mem_map.2 fun x hx => ?_⟩
  rcases of_mem_alignCells x hx with hnil | hmem
  · rw [hnil]
    exact isCell_nil
  · exact hcells _ hmem

end WellFormed

/-! ### Reading what was rendered -/

theorem addLine_bars (t : Table) {cells : List Text} (h : ∀ c ∈ cells, IsCell c) :
    t.addLine (bars cells) = if startsDashed cells then t else t.addCells cells := by
  unfold addLine
  rw [trim_bars]
  dsimp only
  rw [isData_bars, cellsOf_bars h]
  cases startsDashed cells <;> rfl

/-- Reading the lines of rows adds those rows that are no comments. -/
theorem foldl_addLine_bars {t u : Table} (ht : t.WellFormed) (hnodup : t.headers.Nodup)
    (hne : t.headers ≠ []) {rows : List Row} (hrows : rows ⊆ t.rows)
    (hu : u.headers = t.headers) :
    (rows.map fun r => bars r.values).foldl addLine u =
      { u with rows := u.rows ++ rows.filter fun r => !startsDashed r.values } := by
  induction rows generalizing u with
  | nil =>
    rw [List.filter_nil, List.append_nil]
    rfl
  | cons r rows ih =>
    obtain ⟨hr, hrows⟩ := List.cons_subset.1 hrows
    obtain ⟨hpairs, hvalues⟩ := ht.ofPairs_values hnodup hr
    rw [List.map_cons, List.foldl_cons, addLine_bars u hvalues]
    cases hdashed : startsDashed r.values with
    | true =>
      rw [if_pos rfl, ih hrows hu, List.filter_cons_of_neg (by simp [hdashed])]
    | false =>
      have hadd : u.addCells r.values = { u with rows := u.rows ++ [r] } := by
        rw [addCells, if_neg (hu ▸ hne), hu, hpairs]
      have hu' : ({ u with rows := u.rows ++ [r] } : Table).headers = t.headers := hu
      rw [if_neg nofun, hadd, ih hrows hu', List.filter_cons_of_pos (by simp [hdashed]),
        List.append_assoc, List.singleton_append]

/-- The cells of all lines of a table. -/
def cellLists (t : Table) : List (List Text) := t.headers :: t.rows.map Row.values

theorem render_eq (t : Table) : t.render = Text.joinLines (t.cellLists.map bars) ++ ['\n'] := by
  have hjoin : ∀ (first : List Text) (more : List (List Text)),
      (first :: more).flatMap renderCells =
        Text.joinLines ((first :: more).map bars) ++ ['\n'] := by
    intro first more
    induction more generalizing first with
    | nil =>
      rw [List.flatMap_singleton, List.map_singleton, Text.joinLines_singleton, renderCells_eq]
    | cons second more ih =>
      have hne : (second :: more).map bars ≠ [] := List.cons_ne_nil _ _
      have hcons : Text.joinLines ((first :: second :: more).map bars) =
          bars first ++ '\n' :: Text.joinLines ((second :: more).map bars) :=
        Text.joinLines_cons _ hne
      rw [List.flatMap_cons, ih, hcons, renderCells_eq, List.append_assoc, List.append_assoc]
      rfl
  rw [render, cellLists, ← hjoin, List.flatMap_cons, List.flatMap_map]

theorem trim_joinLines_bars (first : List Text) (more : List (List Text)) :
    Text.trim (Text.joinLines ((first :: more).map bars)) =
      Text.joinLines ((first :: more).map bars) := by
  have hbar : Text.isBlank '|' = false := rfl
  have hstart : Text.trimStart (Text.joinLines ((first :: more).map bars)) =
      Text.joinLines ((first :: more).map bars) := by
    obtain ⟨t, ht⟩ := Text.exists_joinLines_cons (bars first) (more.map bars)
    rw [List.map_cons, ht, bars_eq_cons_join]
    exact Text.trimStart_eq_self_iff.2 fun c hc => Option.some.inj hc ▸ hbar
  rw [Text.trim, hstart]
  obtain hnil | ⟨init, last, hlast⟩ := List.eq_nil_or_concat (first :: more)
  · exact absurd hnil (List.cons_ne_nil _ _)
  · rw [hlast, List.concat_eq_append, List.map_append, List.map_singleton, bars,
      Text.joinLines_concat_append]
    exact Text.trimEnd_concat hbar _

theorem WellFormed.isCell_of_mem_cellLists {t : Table} (ht : t.WellFormed)
    (hnodup : t.headers.Nodup) : ∀ cells ∈ t.cellLists, ∀ c ∈ cells, IsCell c := by
  rw [cellLists, List.forall_mem_cons, List.forall_mem_map]
  exact ⟨ht.headers, fun r hr => (ht.ofPairs_values hnodup hr).2⟩

/-- The rendered text has one line for the headers and one for each row. -/
theorem lines_trim_render {t : Table} (ht : t.WellFormed) (hnodup : t.headers.Nodup) :
    Text.lines (Text.trim t.render) = t.cellLists.map bars := by
  have hnewline : ∀ s ∈ t.cellLists.map fun cells => cells.flatMap ('|' :: ·), '\n' ∉ s := by
    refine List.forall_mem_map.2 fun cells hcells hmem => ?_
    obtain ⟨c, hc, hnewline⟩ := List.mem_flatMap.1 hmem
    have hcell := ht.isCell_of_mem_cellLists hnodup cells hcells c hc
    rcases List.mem_cons.1 hnewline with hbar | hnewline
    · exact absurd hbar (by decide)
    · exact hcell.no_newline hnewline
  have hlines := Text.lines_joinLines_concat '|' (by decide) (by decide) hnewline
  rw [List.map_map] at hlines
  rw [render_eq, Text.trim_append_newline, cellLists, trim_joinLines_bars]
  exact hlines

/-- A table that was read comes back from what is rendered for it, but for the rows that are rendered
as comments. -/
theorem WellFormed.read_render {t : Table} (ht : t.WellFormed) (hnodup : t.headers.Nodup)
    (hfirst : startsDashed t.headers = false) :
    (ofText t.render).headers = t.headers ∧
      (ofText t.render).rows = t.rows.filter fun r => !startsDashed r.values := by
  let start : Table := { empty with text := Text.trim t.render }
  have hread : ofText t.render =
      (t.rows.map fun r => bars r.values).foldl Table.addLine { start with headers := t.headers } := by
    have hheaders : start.addLine (bars t.headers) = { start with headers := t.headers } := by
      rw [addLine_bars start ht.headers, hfirst, if_neg nofun]
      rfl
    rw [ofText]
    dsimp only
    rw [lines_trim_render ht hnodup, cellLists, List.map_cons, List.foldl_cons, List.map_map]
    exact congrArg (List.foldl Table.addLine · (t.rows.map fun r => bars r.values)) hheaders
  rw [hread]
  by_cases hne : t.headers = []
  · rw [ht.rows_eq_nil hne]
    exact ⟨rfl, rfl⟩
  · have hstart : ({ start with headers := t.headers } : Table).headers = t.headers := rfl
    rw [foldl_addLine_bars ht hnodup hne (List.Subset.refl t.rows) hstart]
    exact ⟨rfl, rfl⟩

/-! ### The main statement -/

/-- A table whose headers are distinct, and the first of them not dashed, comes back from what is
rendered for it with the same headers and the same rows in the same order, but for the rows whose
first value is dashed. Rendering it once more changes neither headers nor rows. -/
theorem ofText_render (text : Text) (hnodup : (ofText text).headers.Nodup)
    (hfirst : startsDashed (ofText text).headers = false) :
    let t := ofText text
    let u := ofText t.render
    let v := ofText u.render
    u.headers = t.headers ∧ (u.rows = t.rows.filter fun r => !startsDashed r.values) ∧
      v.headers = u.headers ∧ v.rows = u.rows := by
  intro t u v
  obtain ⟨hheaders, hrows⟩ := (wellFormed_ofText text).read_render hnodup hfirst
  obtain ⟨hheaders', hrows'⟩ := (wellFormed_ofText t.render).read_render
    (hheaders.symm ▸ hnodup) (hheaders.symm ▸ hfirst)
  refine ⟨hheaders, hrows, hheaders', hrows'.trans ?_⟩
  -- the rows that are left are none of those that are left out
  rw [List.filter_eq_self]
  intro r hr
  rw [hrows] at hr
  exact (List.mem_filter.1 hr).2

/-- Cells that are empty, missing or too many, a row without bars around it, and one that is rendered
as a comment. -/
theorem ofText_render_of_irregular :
    let text : Text := "| a || c\n\n|| 2 |\n --x | 3 \n|-- left out\n| 4 | | 5 | 6 |"
    let t := ofText text
    let u := ofText t.render
    t.headers = (["a", "", "c"] : List Text) ∧ t.rows.length = 3 ∧ t.headers.Nodup ∧
      startsDashed t.headers = false ∧ u.headers = t.headers ∧
      u.rows = t.rows.filter fun r => !startsDashed r.values := by
  intro text t u
  have hheaders : t.headers = (["a", "", "c"] : List Text) := by decide +kernel
  have hnodup : t.headers.Nodup := by
    rw [hheaders]
    decide
  have hfirst : startsDashed t.headers = false := by
    rw [hheaders]
    rfl
  have hrendered := ofText_render text hnodup hfirst
  exact ⟨hheaders, by decide +kernel, hnodup, hfirst, hrendered.1, hrendered.2.1⟩

end Table

end PlainStory
