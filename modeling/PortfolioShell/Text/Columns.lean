import PortfolioShell.Text.Layout

/-! # Columns

Rows of cells set in columns, which are as wide as their widest cells and have two spaces between them. Rows may
have different numbers of cells. The widths of the columns stand in a list, and a cell is measured and set at its
place in that list; a cell whose column had no width there could not be set. That every cell has one, and what
comes out, is the main statement (`tableList?_eq`). -/

namespace PortfolioShell.Text

/-- A cell with the number of its column. -/
abbrev Placed := List Char × Nat

def columnCount (rows : List (List (List Char))) : Nat := (rows.map List.length).foldl max 0

/-- Makes the column of a cell wide enough for it, if there is such a column. -/
def widen? (widths : List Nat) (cell : Placed) : Option (List Nat) :=
  widths[cell.2]?.map fun width => widths.set cell.2 (max width cell.1.length)

def widenRow? (widths : List Nat) (row : List (List Char)) : Option (List Nat) := row.zipIdx.foldlM widen? widths

def columnWidths? (rows : List (List (List Char))) : Option (List Nat) :=
  rows.foldlM widenRow? (List.replicate (columnCount rows) 0)

/-- A cell with spaces up to the width of its column, if there is such a column. -/
def padTo? (widths : List Nat) (cell : Placed) : Option (List Char) := widths[cell.2]?.map (padList · cell.1)

def tableLine? (widths : List Nat) (row : List (List Char)) : Option (List Char) :=
  (row.zipIdx.mapM (padTo? widths)).map fun cells => dropEnd ([' ', ' '].intercalate cells)

def tableList? (rows : List (List (List Char))) : Option (List (List Char)) :=
  (columnWidths? rows).bind fun widths => rows.mapM (tableLine? widths)

def table? (rows : List (List String)) : Option (List String) :=
  (tableList? (rows.map (·.map String.toList))).map (·.map String.ofList)

/-! ### Widths -/

theorem le_foldl_max (counts : List Nat) (n : Nat) :
    n ≤ counts.foldl max n ∧ ∀ k ∈ counts, k ≤ counts.foldl max n := by
  induction counts generalizing n with
  | nil => exact ⟨Nat.le_refl n, fun _ none => absurd none List.not_mem_nil⟩
  | cons k rest ih =>
    obtain ⟨start, others⟩ := ih (max n k)
    rw [List.foldl_cons]
    exact ⟨by omega, List.forall_mem_cons.mpr ⟨by omega, others⟩⟩

theorem length_le_columnCount (rows : List (List (List Char))) : ∀ row ∈ rows, row.length ≤ columnCount rows :=
  fun _ member => (le_foldl_max (rows.map List.length) 0).2 _ (List.mem_map_of_mem member)

/-- How many characters a row has in column `k`. -/
def sizeAt (row : List (List Char)) (k : Nat) : Nat := (row[k]?.getD []).length

/-- The largest number of characters in column `k` over all rows. -/
def widthAt (rows : List (List (List Char))) (k : Nat) : Nat := (rows.map (sizeAt · k)).foldl max 0

theorem widen?_eq_some {widths : List Nat} {cell : Placed} (here : cell.2 < widths.length) :
    widen? widths cell = some (widths.set cell.2 (max widths[cell.2] cell.1.length)) := by
  rw [widen?, List.getElem?_eq_getElem here, Option.map_some]

/-- Measuring the cells of a row from column `start` on widens these columns and no others. -/
theorem exists_widths_of_cells {widths : List Nat} (row : List (List Char)) (start : Nat)
    (fits : start + row.length ≤ widths.length) :
    ∃ after, (row.zipIdx start).foldlM widen? widths = some after ∧ after.length = widths.length ∧
      ∀ k, after[k]?.getD 0 = max (widths[k]?.getD 0) (if start ≤ k then sizeAt row (k - start) else 0) := by
  induction row generalizing widths start with
  | nil => exact ⟨widths, rfl, rfl, fun k => by simp [sizeAt]⟩
  | cons cell rest ih =>
    rw [List.length_cons] at fits
    have here : start < widths.length := by omega
    obtain ⟨after, done, same, each⟩ := @ih (widths.set start (max widths[start] cell.length)) (start + 1)
      (by rw [List.length_set]; omega)
    refine ⟨after, ?_, same.trans List.length_set, fun k => ?_⟩
    · rw [List.zipIdx_cons, List.foldlM_cons, widen?_eq_some here]
      exact done
    · rw [each k]
      by_cases before : k < start
      · rw [List.getElem?_set_ne (by omega), if_neg (by omega), if_neg (by omega)]
      · by_cases atCell : start = k
        · subst atCell
          rw [if_neg (by omega), if_pos (Nat.le_refl start)]
          simp [sizeAt, here]
        · obtain ⟨later, rfl⟩ : ∃ later, k = start + 1 + later := ⟨k - (start + 1), by omega⟩
          have next : start + 1 + later - start = later + 1 := by omega
          rw [List.getElem?_set_ne (by omega), if_pos (by omega), if_pos (by omega), next, Nat.add_sub_cancel_left]
          simp [sizeAt]

theorem exists_widths_of_rows {rows : List (List (List Char))} {widths : List Nat}
    (fits : ∀ row ∈ rows, row.length ≤ widths.length) :
    ∃ after, rows.foldlM widenRow? widths = some after ∧ after.length = widths.length ∧
      ∀ k, after[k]?.getD 0 = (rows.map (sizeAt · k)).foldl max (widths[k]?.getD 0) := by
  induction rows generalizing widths with
  | nil => exact ⟨widths, rfl, rfl, fun k => rfl⟩
  | cons row rest ih =>
    obtain ⟨first, others⟩ := List.forall_mem_cons.mp fits
    obtain ⟨between, measured, same, each⟩ := exists_widths_of_cells row 0 (by omega : 0 + row.length ≤ widths.length)
    obtain ⟨after, done, kept, total⟩ := ih (same ▸ others)
    refine ⟨after, ?_, kept.trans same, fun k => ?_⟩
    · rw [List.foldlM_cons, widenRow?, measured]
      exact done
    · rw [total k, each k, if_pos (Nat.zero_le k), List.map_cons, List.foldl_cons, Nat.sub_zero]

theorem exists_columnWidths? (rows : List (List (List Char))) : ∃ widths, columnWidths? rows = some widths ∧
    (∀ row ∈ rows, row.length ≤ widths.length) ∧ ∀ k, widths[k]?.getD 0 = widthAt rows k := by
  have columns : (List.replicate (columnCount rows) 0).length = columnCount rows := List.length_replicate
  obtain ⟨widths, measured, same, each⟩ := exists_widths_of_rows (columns ▸ length_le_columnCount rows)
  refine ⟨widths, measured, same.trans columns ▸ length_le_columnCount rows, fun k => ?_⟩
  have nothing : (List.replicate (columnCount rows) 0)[k]?.getD 0 = 0 := by
    rw [List.getElem?_replicate]
    split <;> rfl
  rw [each k, nothing, widthAt]

/-! ### Lines -/

/-- A row with its cells padded and two spaces between them. -/
def joined (width : Nat → Nat) (row : List (List Char)) : List Char :=
  [' ', ' '].intercalate (row.mapIdx fun k cell => padList (width k) cell)

theorem mapM_padTo? {widths : List Nat} (row : List (List Char)) (start : Nat)
    (fits : start + row.length ≤ widths.length) : (row.zipIdx start).mapM (padTo? widths) =
      some (row.mapIdx fun k cell => padList (widths[start + k]?.getD 0) cell) := by
  induction row generalizing start with
  | nil => rfl
  | cons cell rest ih =>
    rw [List.length_cons] at fits
    have here : start < widths.length := by omega
    have others := ih (start + 1) (by omega)
    simp only [Nat.add_assoc, Nat.add_comm 1] at others
    simp [List.mapM_cons, List.mapIdx_cons, padTo?, here, others]

theorem mapM_eq_some_map {α β : Type} {f : α → Option β} {g : α → β} {xs : List α}
    (each : ∀ x ∈ xs, f x = some (g x)) : xs.mapM f = some (xs.map g) := by
  induction xs with
  | nil => rfl
  | cons x rest ih =>
    obtain ⟨first, others⟩ := List.forall_mem_cons.mp each
    simp [List.mapM_cons, first, ih others]

/-- Every cell is measured and set, and each line is the row with its cells padded to the widest of their columns,
less the blanks at its end. -/
theorem tableList?_eq (rows : List (List (List Char))) :
    tableList? rows = some (rows.map fun row => dropEnd (joined (widthAt rows) row)) := by
  obtain ⟨widths, measured, fits, each⟩ := exists_columnWidths? rows
  rw [tableList?, measured, Option.bind_some]
  refine mapM_eq_some_map fun row member => ?_
  have set := mapM_padTo? row 0 (Nat.zero_add row.length ▸ fits row member)
  simp only [Nat.zero_add, each] at set
  rw [tableLine?, set, Option.map_some, joined]

theorem isSome_table? (rows : List (List String)) : (table? rows).isSome = true := by
  rw [table?, tableList?_eq, Option.map_some, Option.isSome_some]

def table (rows : List (List String)) : List String := (table? rows).get (isSome_table? rows)

end PortfolioShell.Text
