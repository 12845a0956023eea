import Mathlib.Data.List.Dedup
import PlainStory.Proofs.Examples.Rendering
import PlainStory.Proofs.Repetition

/-!
# Reading tables

What the text of a table says. Its lines hold cells, but for the blank ones and the comments. The first
of them that holds a cell gives the headers, and each later one a row. In a row a header has the cell
below its last place, and cells behind the headers are in no row.
-/

namespace PlainStory

/-! ### Lines that hold cells -/

namespace Table

/-- What is left of some lines when they are trimmed and blank lines and comments left out. -/
def keepData (ls : List Text) : List Text := (ls.map Text.trim).filter isData

/-- The trimmed lines of a text but for the blank ones and the comments. -/
def dataLines (text : Text) : List Text := keepData (Text.lines text)

theorem keepData_append (ls ms : List Text) :
    keepData (ls ++ ms) = keepData ls ++ keepData ms := by
  rw [keepData, List.map_append, List.filter_append, keepData, keepData]

theorem keepData_singleton_congr {l m : Text} (h : Text.trim l = Text.trim m) :
    keepData [l] = keepData [m] := by
  rw [keepData, keepData, List.map_singleton, List.map_singleton, h]

theorem dataLines_cons_of_blank {c : Char} (hc : Text.isBlank c = true) (s : Text) :
    dataLines (c :: s) = dataLines s := by
  have hone : keepData [[c]] = keepData [[]] :=
    keepData_singleton_congr (Text.trim_cons_of_blank hc [])
  rw [dataLines, dataLines]
  by_cases hn : c = '\n'
  · subst hn
    rw [Text.lines_break_cons]
    rfl
  · by_cases hr : ∃ t, c = '\r' ∧ s = '\n' :: t
    · obtain ⟨t, rfl, rfl⟩ := hr
      rw [Text.lines_return_cons, Text.lines_break_cons]
    · have hr' : ∀ t, c = '\r' → s ≠ '\n' :: t := fun t he hs => hr ⟨t, he, hs⟩
      rw [Text.lines_cons_of_not_break hn hr']
      cases Text.lines s with
      | nil => exact hone
      | cons l ls =>
        have hl := keepData_singleton_congr (Text.trim_cons_of_blank hc l)
        rw [Text.consFirst, ← List.singleton_append, keepData_append, hl, ← keepData_append,
          List.singleton_append]

theorem dataLines_concat_of_blank {c : Char} (hc : Text.isBlank c = true) (s : Text) :
    dataLines (s ++ [c]) = dataLines s := by
  have hblank : ∀ d ∈ [c], Text.isBlank d = true := List.forall_mem_singleton.2 hc
  rw [dataLines, dataLines]
  by_cases hn : c = '\n'
  · subst hn
    have hbreak : ['\n'] ∈ Text.breaks := List.mem_cons_self
    have hended := Text.ended_lines_append hbreak s
    generalize Text.lines (s ++ ['\n']) = ls at hended
    cases hended with
    | same => rfl
    | empty => exact (keepData_append _ _).trans (List.append_nil _)
    | unreturned init l h =>
      have hl := keepData_singleton_congr (Text.trim_append_of_blank l Text.isBlank_return)
      rw [h, keepData_append, keepData_append, hl]
  · rcases Text.lines_concat hn s with h | ⟨init, l, hs, h⟩
    · have hone : keepData [[c]] = keepData [[]] :=
        keepData_singleton_congr (Text.trim_append_of_blank [] hblank)
      rw [h, keepData_append, hone]
      exact List.append_nil _
    · have hl := keepData_singleton_congr (Text.trim_append_of_blank l hblank)
      rw [h, hs, keepData_append, keepData_append, hl]

theorem dataLines_append_of_blank {w : Text} (hw : ∀ c ∈ w, Text.isBlank c = true) (s : Text) :
    dataLines (w ++ s) = dataLines s := by
  induction w with
  | nil => rfl
  | cons c cs ih =>
    obtain ⟨hc, hcs⟩ := List.forall_mem_cons.1 hw
    rw [List.cons_append, dataLines_cons_of_blank hc, ih hcs]

theorem dataLines_append_blank {w : Text} (hw : ∀ c ∈ w, Text.isBlank c = true) (s : Text) :
    dataLines (s ++ w) = dataLines s := by
  induction w generalizing s with
  | nil => rw [List.append_nil]
  | cons c cs ih =>
    obtain ⟨hc, hcs⟩ := List.forall_mem_cons.1 hw
    rw [← List.singleton_append, ← List.append_assoc, ih hcs, dataLines_concat_of_blank hc]

/-- Blanks around a text make no difference to its lines of cells. -/
theorem dataLines_trim (text : Text) : dataLines (Text.trim text) = dataLines text := by
  obtain ⟨w, hw, hstart⟩ := Text.exists_trimStart text
  obtain ⟨v, hv, hend⟩ := Text.exists_trimEnd (Text.trimStart text)
  calc dataLines (Text.trim text)
      = dataLines (Text.trim text ++ v) := (dataLines_append_blank hv _).symm
    _ = dataLines (Text.trimStart text) := congrArg dataLines hend.symm
    _ = dataLines (w ++ Text.trimStart text) := (dataLines_append_of_blank hw _).symm
    _ = dataLines text := congrArg dataLines hstart.symm

theorem foldl_addLine (ls : List Text) (t : Table) :
    ls.foldl addLine t = ((keepData ls).map cellsOf).foldl addCells t := by
  induction ls generalizing t with
  | nil => rfl
  | cons l ls ih =>
    have hcons : keepData (l :: ls) = keepData [l] ++ keepData ls := keepData_append [l] ls
    have hline : t.addLine l = ((keepData [l]).map cellsOf).foldl addCells t := by
      have hadd : t.addLine l =
          if isData (Text.trim l) then t.addCells (cellsOf (Text.trim l)) else t := rfl
      rw [hadd, keepData, List.map_singleton, List.filter_singleton]
      cases isData (Text.trim l) <;> rfl
    rw [List.foldl_cons, ih, hcons, List.map_append, List.foldl_append, hline]

theorem ofText_eq (text : Text) :
    ofText text =
      ((dataLines text).map cellsOf).foldl addCells { empty with text := Text.trim text } := by
  rw [← dataLines_trim text, dataLines, ← foldl_addLine]
  rfl

/-! ### Cells of a line -/

/-- The blank field that a bar bounds. -/
def fieldIf (bar : Prop) [Decidable bar] : List Text := if bar then [[]] else []

/-- Whether some cells are those of a line: the trimmed fields between its bars, but for the blank one in
front of a bar at its start and the blank one behind a bar at its end. -/
def IsCells (line : Text) (cells : List Text) : Prop :=
  (Text.splitAt '|' line).map Text.trim =
    fieldIf (line.head? = some '|') ++ cells ++ fieldIf (line.getLast? = some '|')

theorem dropLastEmpty_append_fieldIf (cells : List Text) (c : Text) :
    dropLastEmpty (cells ++ [c]) ++ fieldIf (c = []) = cells ++ [c] := by
  unfold dropLastEmpty
  rw [List.getLast?_concat, List.dropLast_concat]
  cases c <;> simp [fieldIf]

/-- Only the outer fields can be left out, each on its own. -/
theorem outer_fields (first last : Text) (mid : List Text) :
    fieldIf (first = []) ++ dropLastEmpty (dropFirstEmpty (first :: (mid ++ [last]))) ++
      fieldIf (last = []) = first :: (mid ++ [last]) := by
  cases first with
  | nil =>
    rw [dropFirstEmpty, List.append_assoc, dropLastEmpty_append_fieldIf]
    rfl
  | cons c cs =>
    have hdrop : dropFirstEmpty ((c :: cs) :: (mid ++ [last])) = (c :: cs) :: mid ++ [last] := rfl
    rw [hdrop, List.append_assoc, dropLastEmpty_append_fieldIf]
    rfl

theorem isBlank_of_trim_eq_nil {s : Text} (h : Text.trim s = []) :
    ∀ c ∈ s, Text.isBlank c = true := by
  rw [← Text.ink_eq_nil_iff, ← Text.ink_trim, h, Text.ink_nil]

variable {line : Text}

/-- The first field of a trimmed line is blank only in front of a bar. -/
theorem trim_first_eq_nil_iff (hline : Text.trim line = line) {first rest : Text}
    (heq : line = first ++ '|' :: rest) (hbar : '|' ∉ first) :
    Text.trim first = [] ↔ line.head? = some '|' := by
  cases first with
  | nil =>
    rw [heq]
    exact ⟨fun _ => rfl, fun _ => rfl⟩
  | cons c cs =>
    have hhead : line.head? = some c := by
      rw [heq]
      rfl
    have hc := Text.trimStart_eq_self_iff.1 (Text.trimStart_of_trim hline) c hhead
    rw [hhead, Option.some.injEq]
    constructor
    · intro h
      have hblank := isBlank_of_trim_eq_nil h c List.mem_cons_self
      cases hblank.symm.trans hc
    · rintro rfl
      exact absurd List.mem_cons_self hbar

theorem trim_last_eq_nil_iff (hline : Text.trim line = line) {last front : Text}
    (heq : line = front ++ '|' :: last) (hbar : '|' ∉ last) :
    Text.trim last = [] ↔ line.getLast? = some '|' := by
  obtain rfl | ⟨init, d, rfl⟩ := List.eq_nil_or_concat last
  · rw [heq, List.getLast?_concat]
    exact ⟨fun _ => rfl, fun _ => rfl⟩
  · rw [List.concat_eq_append] at heq hbar ⊢
    have hlast : line = front ++ '|' :: init ++ [d] := by
      rw [heq, List.append_assoc, List.cons_append]
    rw [hlast, List.getLast?_concat, Option.some.injEq]
    constructor
    · intro h
      -- a blank at the end of the line would have been trimmed
      have hd := isBlank_of_trim_eq_nil h d List.mem_concat_self
      have hend := Text.trimEnd_of_trim hline
      rw [hlast, Text.trimEnd_append_of_blank _ (List.forall_mem_singleton.2 hd)] at hend
      have hlen := Text.length_trimEnd_le (front ++ '|' :: init)
      rw [hend, List.length_append, List.length_singleton] at hlen
      omega
    · rintro rfl
      exact absurd List.mem_concat_self hbar

/-- A line with bars has a first field, in front of the first bar, and a last one, behind the last. -/
theorem exists_outer_fields (hbar : '|' ∈ line) :
    ∃ first mid last, Text.splitAt '|' line = first :: (mid ++ [last]) ∧
      (∃ rest, line = first ++ '|' :: rest) ∧ (∃ front, line = front ++ '|' :: last) ∧
      '|' ∉ first ∧ '|' ∉ last := by
  have hjoin := Text.join_splitAt '|' line
  have hfields : ∀ part ∈ Text.splitAt '|' line, '|' ∉ part := fun part hpart h =>
    (Text.mem_of_mem_splitAt hpart _ h).2 rfl
  obtain ⟨first, more, heq⟩ := List.exists_cons_of_ne_nil (Text.splitAt_ne_nil '|' line)
  rw [heq] at hjoin hfields
  have hfirst := hfields first List.mem_cons_self
  obtain rfl | ⟨mid, last, rfl⟩ := List.eq_nil_or_concat more
  · -- the only field is the line itself
    obtain rfl : first = line := by simpa [Text.join] using hjoin
    exact absurd hbar hfirst
  · rw [List.concat_eq_append] at heq hjoin hfields
    have hlast := hfields last (List.mem_cons_of_mem first List.mem_concat_self)
    refine ⟨first, mid, last, heq, ⟨Text.join ['|'] (mid ++ [last]), ?_⟩,
      ⟨Text.join ['|'] (first :: mid), ?_⟩, hfirst, hlast⟩
    · rw [← hjoin, Text.join_cons (List.concat_ne_nil last mid), List.append_assoc,
        List.singleton_append]
    · rw [← hjoin, ← List.cons_append, Text.join_append _ (List.cons_ne_nil first mid)
        (List.cons_ne_nil last []), List.append_assoc, List.singleton_append]
      simp [Text.join]

theorem isCells_cellsOf (hline : Text.trim line = line) (hne : line ≠ []) :
    IsCells line (cellsOf line) := by
  unfold IsCells cellsOf
  by_cases hbar : '|' ∈ line
  · obtain ⟨first, mid, last, heq, ⟨rest, hrest⟩, ⟨front, hfront⟩, hfirst, hlast⟩ :=
      exists_outer_fields hbar
    have houter := outer_fields (Text.trim first) (Text.trim last) (mid.map Text.trim)
    simp only [fieldIf, trim_first_eq_nil_iff hline hrest hfirst,
      trim_last_eq_nil_iff hline hfront hlast] at houter
    rw [heq, List.map_cons, List.map_append, List.map_singleton]
    exact houter.symm
  · have hhead : line.head? ≠ some '|' := fun h => hbar (List.mem_of_mem_head? h)
    have hlast : line.getLast? ≠ some '|' := fun h => hbar (List.mem_of_getLast? h)
    obtain ⟨c, cs, rfl⟩ := List.exists_cons_of_ne_nil hne
    rw [Text.splitAt_of_not_mem hbar, List.map_singleton, hline, fieldIf, if_neg hhead, fieldIf,
      if_neg hlast, List.append_nil]
    rfl

/-! ### Rows -/

end Table

namespace Row

theorem cells_ofPairs_cons (pair : Text × Text) (pairs : List (Text × Text)) :
    (ofPairs (pair :: pairs)).cells =
      if pair.1 ∈ pairs.map Prod.fst then (ofPairs pairs).cells
      else pair :: (ofPairs pairs).cells := by
  have hcells : ∀ ps, (ofPairs ps).cells = (distinctBy Prod.fst ps.reverse).reverse := fun _ => rfl
  rw [hcells, hcells, List.reverse_cons, distinctBy_concat, List.map_reverse, List.reverse_append]
  simp only [List.mem_reverse]
  split <;> rfl

/-- The columns that are written, each at the last place where it is. -/
theorem columns_ofPairs (pairs : List (Text × Text)) :
    (ofPairs pairs).columns = (pairs.map Prod.fst).dedup := by
  induction pairs with
  | nil => rfl
  | cons pair pairs ih =>
    rw [columns, cells_ofPairs_cons, List.map_cons]
    split
    · next h => rw [List.dedup_cons_of_mem h, ← ih, columns]
    · next h => rw [List.dedup_cons_of_notMem h, ← ih, List.map_cons, columns]

theorem mem_of_mem_cells_ofPairs {pairs : List (Text × Text)} {pair : Text × Text}
    (h : pair ∈ (ofPairs pairs).cells) : pair ∈ pairs :=
  List.mem_reverse.1 (mem_of_mem_distinctBy Prod.fst (List.mem_reverse.1 h))

/-- What a row is for the headers of a table and the cells of a line: it has the headers for its columns,
each once and at its last place, and there the cell at that place, or nothing where the line is too
short. -/
structure Aligns (headers cells : List Text) (r : Row) : Prop where
  /-- `List.dedup` keeps the last ones of equal elements. -/
  columns : r.columns = headers.dedup
  get? : ∀ i h, headers[i]? = some h → h ∉ headers.drop (i + 1) →
    r.get? h = some (cells[i]?.getD [])
  values : ∀ v ∈ r.values, v = [] ∨ v ∈ cells.take headers.length

end Row

namespace Table

theorem alignCells_cons (h : Text) (headers cells : List Text) :
    alignCells (h :: headers) cells = (h, cells[0]?.getD []) :: alignCells headers cells.tail := by
  cases cells <;> rfl

theorem alignCells_take (headers cells : List Text) :
    alignCells headers (cells.take headers.length) = alignCells headers cells := by
  fun_induction alignCells headers cells with
  | case1 cells => rfl
  | case2 h hs ih => rw [List.take_nil, alignCells]
  | case3 h hs c cs ih => rw [List.length_cons, List.take_succ_cons, alignCells, ih]

theorem get?_ofPairs_alignCells {headers : List Text} {i : Nat} {h : Text}
    (hi : headers[i]? = some h) (hlast : h ∉ headers.drop (i + 1)) (cells : List Text) :
    (Row.ofPairs (alignCells headers cells)).get? h = some (cells[i]?.getD []) := by
  induction headers generalizing cells i with
  | nil => cases hi
  | cons g gs ih =>
    rw [alignCells_cons, Row.get?, Row.cells_ofPairs_cons, map_fst_alignCells]
    cases i with
    | zero =>
      obtain rfl : g = h := Option.some.inj hi
      have hg : g ∉ gs := hlast
      rw [if_neg hg, Row.lookup_cons_cell, if_pos rfl]
    | succ i =>
      have htail := ih hi hlast cells.tail
      rw [List.getElem?_tail, Row.get?] at htail
      split
      · exact htail
      · next hg =>
        -- the other columns come first, and this one has a place further on
        have hne : h ≠ g := fun he => hg (he ▸ List.mem_of_getElem? hi)
        rw [Row.lookup_cons_cell, if_neg hne]
        exact htail

theorem aligns_ofPairs (headers cells : List Text) :
    Row.Aligns headers cells (Row.ofPairs (alignCells headers cells)) where
  columns := by rw [Row.columns_ofPairs, map_fst_alignCells]
  get? i h hi hlast := get?_ofPairs_alignCells hi hlast cells
  values v hv := by
    obtain ⟨pair, hpair, rfl⟩ := List.mem_map.1 hv
    have hmem := Row.mem_of_mem_cells_ofPairs hpair
    rw [← alignCells_take] at hmem
    exact of_mem_alignCells pair hmem

/-! ### The main statement -/

/-- What the headers and the rows are for the cells of the lines. -/
inductive Reads : List (List Text) → List Text → List Row → Prop where
  | nothing : Reads [] [] []
  | noCells {more : List (List Text)} {headers : List Text} {rows : List Row}
    (h : Reads more headers rows) : Reads ([] :: more) headers rows
  | headers {cells : List Text} {more : List (List Text)} {rows : List Row} (hne : cells ≠ [])
    (hrows : List.Forall₂ (Row.Aligns cells) more rows) : Reads (cells :: more) cells rows

theorem foldl_addCells {t : Table} (hne : t.headers ≠ []) (lists : List (List Text)) :
    lists.foldl addCells t =
      { t with rows := t.rows ++ lists.map fun cells => Row.ofPairs (alignCells t.headers cells) } := by
  induction lists generalizing t with
  | nil => rw [List.foldl_nil, List.map_nil, List.append_nil]
  | cons cells lists ih =>
    have hmore := ih (t := { t with rows := t.rows ++ [Row.ofPairs (alignCells t.headers cells)] }) hne
    rw [List.foldl_cons, addCells, if_neg hne, hmore, List.map_cons, List.append_assoc,
      List.singleton_append]

theorem reads_foldl_addCells (lists : List (List Text)) {t : Table} (hheaders : t.headers = [])
    (hrows : t.rows = []) :
    Reads lists (lists.foldl addCells t).headers (lists.foldl addCells t).rows := by
  induction lists with
  | nil =>
    rw [List.foldl_nil, hheaders, hrows]
    exact .nothing
  | cons cells more ih =>
    rw [List.foldl_cons, addCells, if_pos hheaders]
    by_cases hne : cells = []
    · subst hne
      have hsame : { t with headers := [] } = t := by rw [← hheaders]
      rw [hsame]
      exact .noCells ih
    · rw [foldl_addCells (t := { t with headers := cells }) hne, hrows, List.nil_append]
      refine .headers hne ?_
      rw [List.forall₂_map_right_iff]
      exact List.forall₂_same.2 fun line _ => aligns_ofPairs cells line

/-- The headers of a table are the first cells that a line of its text has, and there is one row for
each line behind them. -/
theorem ofText_reads (text : Text) :
    ∃ lists, List.Forall₂ IsCells (dataLines text) lists ∧
      Reads lists (ofText text).headers (ofText text).rows := by
  refine ⟨(dataLines text).map cellsOf, ?_, ?_⟩
  · rw [List.forall₂_map_right_iff]
    refine List.forall₂_same.2 fun line hline => ?_
    obtain ⟨hmem, hdata⟩ := List.mem_filter.1 hline
    obtain ⟨l, -, rfl⟩ := List.mem_map.1 hmem
    refine isCells_cellsOf (Text.trim_trim l) fun hnil => ?_
    rw [hnil] at hdata
    cases hdata
  · rw [ofText_eq]
    exact reads_foldl_addCells _ rfl rfl

end Table

end PlainStory
