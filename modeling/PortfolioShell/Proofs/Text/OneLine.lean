import PortfolioShell.Proofs.Text.Columns
import PortfolioShell.Proofs.Text.Filling
import PortfolioShell.Text.Style

/-! # Texts of one line

A text is of one line when no line feed stands in it. What is made of such texts is of one line, and so is every
line that wrapping gives. A line of a table need not be: it has the line feeds of its cells, up to the last
character of the row that is no blank and up to the cut (`feed_mem_cut_line_iff`). -/

namespace PortfolioShell.Text

def OneLine (s : String) : Prop := '\n' ∉ s.toList

instance (s : String) : Decidable (OneLine s) := inferInstanceAs (Decidable ('\n' ∉ s.toList))

variable {s : String} {width : Nat}

theorem OneLine.append {a b : String} (first : OneLine a) (second : OneLine b) : OneLine (a ++ b) := by
  rw [OneLine, String.toList_append, List.mem_append, not_or]
  exact ⟨first, second⟩

theorem OneLine.of_solid (solid : ∀ c ∈ s.toList, isBlank c = false) : OneLine s := fun inside => by
  have blank : isBlank '\n' = true := by decide
  rw [solid '\n' inside] at blank
  cases blank

theorem OneLine.of_subset {whole : List Char} (oneLine : '\n' ∉ whole) (part : s.toList ⊆ whole) : OneLine s :=
  fun inside => oneLine (part inside)

theorem dropEnds_sublist (s : List Char) : (dropEnds s).Sublist s :=
  (List.rdropWhile_prefix isBlank _).sublist.trans (List.dropWhile_sublist isBlank)

theorem OneLine.trimmed (oneLine : OneLine s) : OneLine (trimmed s) := by
  refine .of_subset oneLine ?_
  rw [toList_trimmed]
  exact (dropEnds_sublist s.toList).subset

theorem OneLine.args {command : CommandLine} (oneLine : OneLine s) (parsed : CommandLine.parse? s = some command) :
    OneLine command.args := by
  obtain ⟨-, rfl⟩ := CommandLine.eq_of_parse? parsed
  refine .of_subset oneLine ?_
  rw [String.toList_ofList]
  exact ((List.dropWhile_sublist _).trans ((List.dropWhile_sublist _).trans (dropEnds_sublist s.toList))).subset

theorem oneLine_join {pieces : List String} (each : ∀ piece ∈ pieces, OneLine piece) : OneLine (String.join pieces) := by
  rw [OneLine, String.toList_join]
  intro inside
  obtain ⟨piece, listed, inside⟩ := List.mem_flatMap.mp inside
  exact each piece listed inside

theorem oneLine_intercalate {sep : String} (oneLine : OneLine sep) {pieces : List String}
    (each : ∀ piece ∈ pieces, OneLine piece) : OneLine (sep.intercalate pieces) := by
  induction pieces with
  | nil => exact List.not_mem_nil
  | cons piece rest ih =>
    obtain ⟨first, others⟩ := List.forall_mem_cons.mp each
    by_cases alone : rest = []
    · rw [alone, String.intercalate_singleton]
      exact first
    · rw [String.intercalate_cons_of_ne_nil alone]
      exact (first.append oneLine).append (ih others)

theorem oneLine_number (n : Nat) : OneLine (toString n) := fun inside => by
  have digit : '\n'.isDigit = true := Nat.isDigit_of_mem_toDigits (by decide) (by decide) (Nat.toList_repr ▸ inside)
  exact absurd digit (by decide)

theorem oneLine_pad (n : Nat) (oneLine : OneLine s) : OneLine (pad n s) := by
  rw [OneLine, pad, String.toList_ofList, padList, List.mem_append, not_or]
  exact ⟨oneLine, fun inside => absurd (List.eq_of_mem_replicate inside) (by decide)⟩

theorem oneLine_padLeft (n : Nat) (oneLine : OneLine s) : OneLine (padLeft n s) := by
  rw [OneLine, padLeft, String.toList_ofList, List.mem_append, not_or]
  exact ⟨fun inside => absurd (List.eq_of_mem_replicate inside) (by decide), oneLine⟩

theorem OneLine.styled (oneLine : OneLine s) (style : Style) : OneLine (styled style s) :=
  have code : OneLine (toString style.code) := oneLine_number style.code
  ((((by decide : OneLine "\x1b[").append code).append (by decide)).append oneLine).append (by decide)

theorem oneLine_of_mem_wrap {line text : String} (member : line ∈ wrap width text) : OneLine line := by
  by_cases filled : text = ""
  · rw [filled] at member
    obtain rfl : line = "" := List.mem_singleton.mp member
    decide
  · exact (neat_of_mem_wrap filled member).2

/-! ### Lines of tables -/

/-- The character `c` of some cell stands `n` places behind the start of the row's line. -/
def StandsAt (rows : List (List String)) (row : List String) (n : Nat) (c : Char) : Prop :=
  ∃ (j q : Nat) (cell : String), row[j]? = some cell ∧ cell.toList[q]? = some c ∧ n = startOf (columnWidth rows) j + q

/-- How much is kept of a text that is cut at a width with dots after it. -/
def cutAt (width : Nat) : Nat := if 3 < width then width - 3 else width

/-- A line feed of a cell is shown: a character that is no blank follows it in the row, and the row is not cut before
it, because all that is no blank in the row fits the width or because the cut comes later. -/
def FeedShown (rows : List (List String)) (width : Nat) (row : List String) : Prop :=
  ∃ n, StandsAt rows row n '\n' ∧ (∃ m c, n < m ∧ StandsAt rows row m c ∧ isBlank c = false) ∧
    ((∀ m c, StandsAt rows row m c → isBlank c = false → m < width) ∨ n < cutAt width)

section

variable {rows : List (List String)} {row : List String} {n : Nat} {c : Char}

theorem standsAt_iff (listed : row ∈ rows) (other : c ≠ ' ') : StandsAt rows row n c ↔ (setRow rows row)[n]? = some c := by
  constructor
  · rintro ⟨j, q, cell, here, held, rfl⟩
    exact getElem?_joined (fits_columnWidth listed) (by rw [List.getElem?_map, here, Option.map_some]) held
  · intro held
    obtain ⟨j, letters, q, here, inside, place⟩ := exists_cell_of_joined (fits_columnWidth listed) held other
    rw [List.getElem?_map, Option.map_eq_some_iff] at here
    obtain ⟨cell, here, rfl⟩ := here
    exact ⟨j, q, cell, here, inside, place⟩

theorem ne_space_of_solid (solid : isBlank c = false) : c ≠ ' ' := by
  rintro rfl
  exact absurd solid (by decide)

theorem length_dropEnd_le_iff (listed : row ∈ rows) : (dropEnd (setRow rows row)).length ≤ width ↔
    ∀ m c, StandsAt rows row m c → isBlank c = false → m < width := by
  rw [← Nat.not_lt, lt_length_dropEnd_iff]
  constructor
  · intro short m c stands solid
    have held := (standsAt_iff listed (ne_space_of_solid solid)).mp stands
    exact Nat.lt_of_not_le fun far => short ⟨m, c, far, held, solid⟩
  · rintro fits ⟨m, c, far, held, solid⟩
    have near := fits m c ((standsAt_iff listed (ne_space_of_solid solid)).mpr held) solid
    omega

theorem getElem?_dropEnd_feed_iff (listed : row ∈ rows) : (dropEnd (setRow rows row))[n]? = some '\n' ↔
    StandsAt rows row n '\n' ∧ ∃ m c, n < m ∧ StandsAt rows row m c ∧ isBlank c = false := by
  constructor
  · intro held
    have inside : n < (dropEnd (setRow rows row)).length := (List.getElem?_eq_some_iff.mp held).1
    rw [getElem?_dropEnd inside] at held
    obtain ⟨m, c, behind, here, solid⟩ := lt_length_dropEnd_iff.mp inside
    have apart : n ≠ m := by
      rintro rfl
      rw [held, Option.some.injEq] at here
      exact absurd (here ▸ solid) (by decide)
    exact ⟨(standsAt_iff listed (by decide)).mpr held, m, c, by omega,
      (standsAt_iff listed (ne_space_of_solid solid)).mpr here, solid⟩
  · rintro ⟨stands, m, c, behind, here, solid⟩
    have inside : n < (dropEnd (setRow rows row)).length := lt_length_dropEnd_iff.mpr
      ⟨m, c, Nat.le_of_lt behind, (standsAt_iff listed (ne_space_of_solid solid)).mp here, solid⟩
    rw [getElem?_dropEnd inside]
    exact (standsAt_iff listed (by decide)).mp stands

theorem feed_mem_truncateList_iff {letters : List Char} : '\n' ∈ truncateList width true letters ↔
    ∃ n, letters[n]? = some '\n' ∧ (letters.length ≤ width ∨ n < cutAt width) := by
  have kept (k : Nat) : '\n' ∈ letters.take k ↔ ∃ n, letters[n]? = some '\n' ∧ n < k := by
    rw [List.mem_iff_getElem?]
    refine exists_congr fun n => ?_
    rw [List.getElem?_take]
    split
    · rename_i before
      exact (and_iff_left before).symm
    · rename_i beyond
      exact ⟨fun missing => absurd missing (by simp), fun both => absurd both.2 beyond⟩
  rw [truncateList, cutAt]
  by_cases short : letters.length ≤ width
  · rw [if_pos short, List.mem_iff_getElem?]
    exact exists_congr fun n => (and_iff_left (.inl short)).symm
  · rw [if_neg short]
    by_cases dotted : 3 < width
    · simp [dotted, kept, short]
    · simp [dotted, kept, short]

theorem feed_mem_cut_line_iff (rows : List (List String)) (width : Nat) :
    (∃ line ∈ (table rows).map (truncate width true), '\n' ∈ line.toList) ↔ ∃ row ∈ rows, FeedShown rows width row := by
  have one {row : List String} (listed : row ∈ rows) :
      '\n' ∈ (truncate width true (String.ofList (dropEnd (setRow rows row)))).toList ↔ FeedShown rows width row := by
    rw [truncate, String.toList_ofList, String.toList_ofList, feed_mem_truncateList_iff]
    refine exists_congr fun n => ?_
    rw [getElem?_dropEnd_feed_iff listed, length_dropEnd_le_iff listed, and_assoc]
  rw [table_eq_map, List.map_map]
  constructor
  · rintro ⟨line, listed, inside⟩
    obtain ⟨row, given, rfl⟩ := List.mem_map.mp listed
    exact ⟨row, given, (one given).mp inside⟩
  · rintro ⟨row, given, shown⟩
    exact ⟨_, List.mem_map_of_mem given, (one given).mpr shown⟩

end

end PortfolioShell.Text
