import PortfolioShell.Proofs.Text.Words
import PortfolioShell.Text.Columns

/-! # Where the cells of a table stand

A cell of a column stands at the start of that column in its line, the same for all rows. So each character of a
cell is found at a known place of the line (`getElem?_joined`), and each character of the line that is no space
comes from a cell (`exists_cell_of_joined`). Dropping the blanks at the end of a line takes no cell further than
to its own last character that is no blank. -/

namespace PortfolioShell.Text

/-! ### Dropping blanks at the end -/

theorem getElem?_dropEnd {s : List Char} {p : Nat} (inside : p < (dropEnd s).length) : (dropEnd s)[p]? = s[p]? := by
  obtain ⟨tail, split⟩ : dropEnd s <+: s := List.rdropWhile_prefix isBlank s
  conv_rhs => rw [← split]
  rw [List.getElem?_append_left inside]

/-- A place is left when a character that is no blank stands there or behind it. -/
theorem lt_length_dropEnd_iff {s : List Char} {p : Nat} :
    p < (dropEnd s).length ↔ ∃ q c, p ≤ q ∧ s[q]? = some c ∧ isBlank c = false := by
  constructor
  · intro inside
    have filled : dropEnd s ≠ [] := List.ne_nil_of_length_pos (by omega)
    have last : (dropEnd s).length - 1 < (dropEnd s).length := by omega
    refine ⟨(dropEnd s).length - 1, (dropEnd s).getLast filled, by omega, ?_,
      last_dropEnd s _ (List.getLast?_eq_some_getLast filled)⟩
    rw [← getElem?_dropEnd last, ← List.getLast?_eq_getElem?, List.getLast?_eq_some_getLast filled]
  · rintro ⟨q, c, behind, here, solid⟩
    refine Nat.lt_of_le_of_lt behind (Nat.lt_of_not_le fun dropped => ?_)
    have whole : dropEnd s ++ s.rtakeWhile isBlank = s := List.rdropWhile_append_rtakeWhile
    rw [← whole, List.getElem?_append_right dropped] at here
    have blank : isBlank c = true := List.mem_rtakeWhile_imp (List.mem_of_getElem? here)
    rw [solid] at blank
    cases blank

/-! ### Places in a line -/

/-- Where column `j` starts, when each column before it takes its width and two spaces. -/
def startOf (width : Nat → Nat) : Nat → Nat
  | 0 => 0
  | j + 1 => startOf width j + (width j + 2)

theorem startOf_succ (width : Nat → Nat) (j : Nat) :
    startOf width (j + 1) = width 0 + 2 + startOf (fun k => width (k + 1)) j := by
  induction j with
  | zero => simp [startOf]
  | succ j ih =>
    rw [startOf, ih, startOf]
    omega

variable {width : Nat → Nat} {row : List (List Char)} {cell : List Char} {p q j : Nat} {c : Char}

theorem length_padList {n : Nat} (fits : cell.length ≤ n) : (padList n cell).length = n := by
  rw [padList, List.length_append, List.length_replicate]
  omega

theorem getElem?_padList {n : Nat} (held : cell[p]? = some c) : (padList n cell)[p]? = some c := by
  rw [padList, List.getElem?_append_left (List.getElem?_eq_some_iff.mp held).1, held]

theorem getElem?_of_padList {n : Nat} (held : (padList n cell)[p]? = some c) (other : c ≠ ' ') :
    cell[p]? = some c := by
  rw [padList, List.getElem?_append] at held
  split at held
  · exact held
  · exact absurd (List.eq_of_mem_replicate (List.mem_of_getElem? held)) other

/-- No cell of the row has more characters than its column. -/
def Fits (width : Nat → Nat) (row : List (List Char)) : Prop := ∀ k cell, row[k]? = some cell → cell.length ≤ width k

theorem Fits.first (fits : Fits width (cell :: row)) : cell.length ≤ width 0 := fits 0 cell rfl

theorem Fits.rest (fits : Fits width (cell :: row)) : Fits (fun k => width (k + 1)) row :=
  fun k other held => fits (k + 1) other held

theorem joined_singleton (width : Nat → Nat) (cell : List Char) : joined width [cell] = padList (width 0) cell := by
  simp [joined]

theorem joined_cons (width : Nat → Nat) (cell : List Char) (more : row ≠ []) :
    joined width (cell :: row) = padList (width 0) cell ++ ' ' :: ' ' :: joined (fun k => width (k + 1)) row := by
  rw [joined, List.mapIdx_cons, List.intercalate_cons_of_ne_nil (by simpa using more)]
  simp [joined]

theorem getElem?_joined (fits : Fits width row) (here : row[j]? = some cell) (held : cell[q]? = some c) :
    (joined width row)[startOf width j + q]? = some c := by
  induction row generalizing width j with
  | nil => cases here
  | cons first rest ih =>
    cases j with
    | zero =>
      obtain rfl : first = cell := Option.some.inj here
      have padded := getElem?_padList (n := width 0) held
      rw [startOf, Nat.zero_add]
      by_cases alone : rest = []
      · rw [alone, joined_singleton, padded]
      · rw [joined_cons width first alone, List.getElem?_append_left (List.getElem?_eq_some_iff.mp padded).1, padded]
    | succ j =>
      have more : rest ≠ [] := by
        rintro rfl
        cases here
      have size := length_padList fits.first
      have place : startOf width (j + 1) + q =
          (padList (width 0) first).length + (startOf (fun k => width (k + 1)) j + q + 2) := by
        rw [startOf_succ, size]
        omega
      rw [joined_cons width first more, place, List.getElem?_append_right (Nat.le_add_right _ _),
        Nat.add_sub_cancel_left, List.getElem?_cons_succ, List.getElem?_cons_succ]
      exact ih fits.rest here

theorem exists_cell_of_joined (fits : Fits width row) (held : (joined width row)[p]? = some c) (other : c ≠ ' ') :
    ∃ j cell q, row[j]? = some cell ∧ cell[q]? = some c ∧ p = startOf width j + q := by
  induction row generalizing width p with
  | nil => cases held
  | cons first rest ih =>
    have inFirst (held : (padList (width 0) first)[p]? = some c) :
        ∃ j cell q, (first :: rest)[j]? = some cell ∧ cell[q]? = some c ∧ p = startOf width j + q :=
      ⟨0, first, p, rfl, getElem?_of_padList held other, (Nat.zero_add p).symm⟩
    by_cases alone : rest = []
    · rw [alone, joined_singleton] at held
      exact inFirst held
    · rw [joined_cons width first alone, List.getElem?_append] at held
      split at held
      · exact inFirst held
      · rename_i outside
        have size := length_padList fits.first
        match place : p - (padList (width 0) first).length with
        | 0 =>
          rw [place] at held
          exact absurd (Option.some.inj held).symm other
        | 1 =>
          rw [place] at held
          exact absurd (Option.some.inj held).symm other
        | later + 2 =>
          rw [place, List.getElem?_cons_succ, List.getElem?_cons_succ] at held
          obtain ⟨j, cell, q, here, inside, same⟩ := ih fits.rest held
          refine ⟨j + 1, cell, q, here, inside, ?_⟩
          rw [startOf_succ]
          omega

/-! ### Rows of texts -/

/-- The largest number of characters in column `k` over all rows. -/
def columnWidth (rows : List (List String)) (k : Nat) : Nat :=
  (rows.map fun row => (row[k]?.getD "").length).foldl max 0

section

variable {rows : List (List String)} {texts : List String}

theorem widthAt_eq_columnWidth (rows : List (List String)) : widthAt (rows.map (·.map String.toList)) = columnWidth rows := by
  funext k
  rw [widthAt, columnWidth, List.map_map]
  congr 1
  refine List.map_congr_left fun row _ => ?_
  rw [Function.comp_apply, sizeAt, List.getElem?_map]
  cases row[k]? with
  | none => rfl
  | some text => exact String.length_toList

theorem fits_columnWidth (listed : texts ∈ rows) : Fits (columnWidth rows) (texts.map String.toList) := by
  intro k cell held
  rw [List.getElem?_map, Option.map_eq_some_iff] at held
  obtain ⟨text, here, rfl⟩ := held
  have size : text.length = (texts[k]?.getD "").length := by rw [here, Option.getD_some]
  rw [String.length_toList, size]
  exact (le_foldl_max _ 0).2 _ (List.mem_map_of_mem (f := fun row : List String => (row[k]?.getD "").length) listed)

/-- The line of a row, with its blanks at the end. -/
def setRow (rows : List (List String)) (texts : List String) : List Char :=
  joined (columnWidth rows) (texts.map String.toList)

theorem table_eq_map (rows : List (List String)) :
    table rows = rows.map fun texts => String.ofList (dropEnd (setRow rows texts)) := by
  have lines : table? rows = some (table rows) := (Option.some_get _).symm
  rw [table?, tableList?_eq, widthAt_eq_columnWidth, Option.map_some, Option.some.injEq, List.map_map,
    List.map_map] at lines
  exact lines.symm

end

/-- Every cell is measured and set where the list of widths has its column, and each row gives one line, without
blanks at its end. In all lines the cell of one column, up to its last character that is no blank, stands at the
same place: behind the widest cells of the columns before it and two spaces for each. -/
theorem table_aligns (rows : List (List String)) :
    table? rows = some (table rows) ∧ (table rows).length = rows.length ∧
      (∀ line ∈ table rows, ∀ c ∈ line.toList.getLast?, isBlank c = false) ∧
      ∀ (i j : Nat) (row : List String) (cell : String), rows[i]? = some row → row[j]? = some cell →
        ∃ line, (table rows)[i]? = some line ∧
          dropEnd cell.toList <+: line.toList.drop (startOf (columnWidth rows) j) := by
  refine ⟨(Option.some_get _).symm, by rw [table_eq_map, List.length_map], ?_, ?_⟩
  · intro line listed
    rw [table_eq_map] at listed
    obtain ⟨row, -, rfl⟩ := List.mem_map.mp listed
    rw [String.toList_ofList]
    exact last_dropEnd _
  · intro i j row cell given here
    refine ⟨String.ofList (dropEnd (setRow rows row)), by rw [table_eq_map, List.getElem?_map, given, Option.map_some], ?_⟩
    rw [String.toList_ofList, List.prefix_iff_getElem?]
    intro q inside
    have placed : (row.map String.toList)[j]? = some cell.toList := by rw [List.getElem?_map, here, Option.map_some]
    have found {q : Nat} {c : Char} (held : cell.toList[q]? = some c) :
        (setRow rows row)[startOf (columnWidth rows) j + q]? = some c :=
      getElem?_joined (fits_columnWidth (List.mem_of_getElem? given)) placed held
    -- a character that is no blank keeps all before it from being dropped, in the cell and in the line
    obtain ⟨last, c, behind, held, solid⟩ := lt_length_dropEnd_iff.mp inside
    have kept : startOf (columnWidth rows) j + q < (dropEnd (setRow rows row)).length :=
      lt_length_dropEnd_iff.mpr ⟨startOf (columnWidth rows) j + last, c, by omega, found held, solid⟩
    rw [List.getElem?_drop, getElem?_dropEnd kept]
    apply found
    rw [← getElem?_dropEnd inside, List.getElem?_eq_getElem inside]

theorem table_aligns_in_sample :
    [["é/", "", " a b "], ["notes", "x"]][0]? = some ["é/", "", " a b "] ∧ ["é/", "", " a b "][2]? = some " a b " ∧
      ∃ line, (table [["é/", "", " a b "], ["notes", "x"]])[0]? = some line ∧
        [' ', 'a', ' ', 'b'] <+: line.toList.drop 10 := by
  have start : startOf (columnWidth [["é/", "", " a b "], ["notes", "x"]]) 2 = 10 := by decide
  have shown : dropEnd " a b ".toList = [' ', 'a', ' ', 'b'] := by decide
  obtain ⟨line, listed, placed⟩ :=
    (table_aligns [["é/", "", " a b "], ["notes", "x"]]).2.2.2 0 2 ["é/", "", " a b "] " a b " rfl rfl
  exact ⟨rfl, rfl, line, listed, shown ▸ start ▸ placed⟩

end PortfolioShell.Text
