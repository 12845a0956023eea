import PlainStory.Repetition
import PlainStory.Text.Basic

/-!
# Rows

A row of a table gives a value to each of its columns and keeps the order in which they were last
written, so a column written twice stands at its last place.
-/

namespace PlainStory

/-- A row of a table: its columns, each once, with their values. -/
structure Row where
  cells : List (Text × Text)
  nodup_columns : (cells.map Prod.fst).Nodup
deriving DecidableEq

namespace Row

def empty : Row := ⟨[], List.nodup_nil⟩

def columns (r : Row) : List Text := r.cells.map Prod.fst

def values (r : Row) : List Text := r.cells.map Prod.snd

def get? (r : Row) (column : Text) : Option Text := r.cells.lookup column

/-- Writes a column, which then is the last one. -/
def insert (r : Row) (column value : Text) : Row where
  cells := r.cells.filter (fun c => c.1 ≠ column) ++ [(column, value)]
  nodup_columns := by
    rw [List.map_append, List.nodup_append]
    refine ⟨(List.filter_sublist.map Prod.fst).nodup r.nodup_columns, by simp, ?_⟩
    simp only [List.mem_map, List.mem_filter, List.map_cons, List.map_nil, List.mem_singleton]
    rintro _ ⟨c, ⟨-, hc⟩, rfl⟩ _ rfl
    simpa using hc

/-- The row that comes from writing the given columns one after another: what is written last for a
column stays, at its place. -/
def ofPairs (pairs : List (Text × Text)) : Row where
  cells := (distinctBy Prod.fst pairs.reverse).reverse
  nodup_columns := by
    rw [List.map_reverse]
    exact List.pairwise_reverse.2 ((nodup_map_distinctBy Prod.fst pairs.reverse).imp Ne.symm)

theorem columns_insert (r : Row) (column value : Text) :
    (r.insert column value).columns = r.columns.filter (· ≠ column) ++ [column] := by
  simp only [columns, insert, List.map_append, List.filter_map, Function.comp_def]
  rfl

theorem lookup_cons_cell (column value other : Text) (cells : List (Text × Text)) :
    ((column, value) :: cells).lookup other =
      if other = column then some value else cells.lookup other := by
  by_cases h : other = column
  · simp [h]
  · rw [List.lookup_cons, beq_false_of_ne h, if_neg h]

/-- Leaving out a column hides its value and no other one. -/
theorem lookup_filter_column (column other : Text) (cells : List (Text × Text)) :
    (cells.filter fun c => c.1 ≠ column).lookup other =
      if other = column then none else cells.lookup other := by
  induction cells with
  | nil => simp
  | cons c cells ih =>
    obtain ⟨d, v⟩ := c
    by_cases hd : d = column
    · subst hd
      rw [List.filter_cons_of_neg (by simp), ih, lookup_cons_cell]
      by_cases ho : other = d <;> simp [ho]
    · rw [List.filter_cons_of_pos (by simpa using hd), lookup_cons_cell, lookup_cons_cell, ih]
      by_cases ho : other = d <;> simp [ho, hd]

/-- Writing a column changes the value there and nowhere else. -/
theorem get?_insert (r : Row) (column value other : Text) :
    (r.insert column value).get? other = if other = column then some value else r.get? other := by
  rw [get?, insert, List.lookup_append, lookup_filter_column, lookup_cons_cell]
  by_cases h : other = column <;> simp [h, get?]

theorem ofPairs_concat (pairs : List (Text × Text)) (column value : Text) :
    ofPairs (pairs ++ [(column, value)]) = (ofPairs pairs).insert column value := by
  have : ∀ c : Text × Text, (!(column == c.1)) = decide (c.1 ≠ column) := by
    intro c
    by_cases h : c.1 = column
    · simp [h]
    · simp [h, Ne.symm h]
  simp [ofPairs, insert, distinctBy_cons, this]

end Row

end PlainStory
