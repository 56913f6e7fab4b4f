import PortfolioShell.Proofs.Json.Indented
import PortfolioShell.Proofs.Json.Lines
import PortfolioShell.Proofs.Text.Columns
import PortfolioShell.Shell.Rendering

/-! # Listings and rich content on the screen

A listing has one line for each entry, which is the entry's row of the table cut at the width of the screen
(`listing_fits_width`). Rich content is shown as it is, whatever the width: its lines are a JSON text from which the same
value is read back (`rich_content_reads_back`). -/

namespace PortfolioShell

namespace Text

/-! ### Cutting at a width -/

/-- A text that fits the width is left as it is. Of any other as much is left as fills the width, and its last three
characters give way to dots if the width has room for more than these. -/
structure CutTo (width : Nat) (text line : String) : Prop where
  whole : text.length ≤ width → line = text
  full : width < text.length → line.length = width
  dotted : width < text.length → 3 < width → line.toList = text.toList.take (width - 3) ++ ['.', '.', '.']
  bare : width < text.length → width ≤ 3 → line.toList = text.toList.take width

variable {width : Nat} {text line : String}

theorem truncate_of_fits (fits : text.length ≤ width) (ellipsis : Bool) : truncate width ellipsis text = text := by
  rw [truncate, truncateList, String.length_toList, if_pos fits, String.ofList_toList]

theorem toList_truncate (long : width < text.length) : (truncate width true text).toList =
    if 3 < width then text.toList.take (width - 3) ++ ['.', '.', '.'] else text.toList.take width := by
  have wide : ¬ text.toList.length ≤ width := by
    rw [String.length_toList]
    omega
  rw [truncate, String.toList_ofList, truncateList, if_neg wide]
  simp

theorem cutTo_truncate (width : Nat) (text : String) : CutTo width text (truncate width true text) where
  whole fits := truncate_of_fits fits true
  full long := by
    rw [← String.length_toList, toList_truncate long]
    split
    · rw [List.length_append, List.length_take, String.length_toList]
      simp only [List.length_cons, List.length_nil]
      omega
    · rw [List.length_take, String.length_toList]
      omega
  dotted long room := by rw [toList_truncate long, if_pos room]
  bare long narrow := by rw [toList_truncate long, if_neg (by omega)]

theorem CutTo.length_le (cut : CutTo width text line) : line.length ≤ width := by
  rcases Nat.lt_or_ge width text.length with long | fits
  · rw [cut.full long]
  · rw [cut.whole fits]
    exact fits

end Text

namespace Payload

/-! ### Listings -/

/-- A listing with entries has one line for each, in their order, and none is wider than the screen, so that cutting it
again changes nothing. The line is the entry's row of the table, its cells set in columns and the blanks at the end
dropped, cut at the width. -/
theorem listing_fits_width (path : String) {entries : List Entry} (filled : entries ≠ []) (enriched : Bool) (width : Nat)
    (symbol : String) :
    let rows := entries.map (Entry.cells enriched)
    let lines := (listing path entries enriched).render width symbol
    lines.length = entries.length ∧
      (∀ line ∈ lines, line.length ≤ width ∧ ∀ ellipsis, Text.truncate width ellipsis line = line) ∧
      ∀ (i : Nat) (e : Entry), entries[i]? = some e → ∃ row line, (Text.table rows)[i]? = some row ∧
        row.toList = Text.dropEnd (Text.setRow rows (e.cells enriched)) ∧ lines[i]? = some line ∧ Text.CutTo width row line := by
  intro rows lines
  have shown : lines = (Text.table rows).map (Text.truncate width true) := by
    show renderListing entries enriched width = _
    rw [renderListing, if_neg filled]
  have size : (Text.table rows).length = entries.length := by
    rw [Text.table_eq_map, List.length_map, List.length_map]
  refine ⟨by rw [shown, List.length_map, size], fun line listed => ?_, fun i e given => ?_⟩
  · obtain ⟨row, -, rfl⟩ := List.mem_map.mp (shown ▸ listed)
    have fits := (Text.cutTo_truncate width row).length_le
    exact ⟨fits, Text.truncate_of_fits fits⟩
  · have row : (Text.table rows)[i]? = some (String.ofList (Text.dropEnd (Text.setRow rows (e.cells enriched)))) := by
      rw [Text.table_eq_map, List.getElem?_map, List.getElem?_map, given, Option.map_some, Option.map_some]
    exact ⟨_, _, row, String.toList_ofList, by rw [shown, List.getElem?_map, row, Option.map_some], Text.cutTo_truncate width _⟩

theorem listing_fits_width_in_sample :
    let entries : List Entry :=
      [⟨"projects", .directory, some "Things I have built", none⟩, ⟨"é", .file, some "Ωmega", some "…"⟩]
    entries ≠ [] ∧ entries[0]? = some ⟨"projects", .directory, some "Things I have built", none⟩ ∧
      ∃ line, ((listing "~" entries true).render 20 "$")[0]? = some line ∧ line = "📁 projects/  Thin..." := by
  intro entries
  have filled : entries ≠ [] := List.cons_ne_nil _ _
  obtain ⟨-, -, each⟩ := listing_fits_width "~" filled true 20 "$"
  obtain ⟨row, line, -, letters, shown, cut⟩ := each 0 _ rfl
  have long : 20 < row.length := by
    rw [← String.length_toList, letters]
    decide
  refine ⟨filled, rfl, line, shown, ?_⟩
  rw [← String.toList_inj, cut.dotted long (by decide), letters]
  decide

/-! ### Rich content -/

/-- Behind the heading the lines of rich content are, with line feeds between them, the indented JSON of the value, from
which the value is read back with its members in the same order. No control stands in a line, every string and every key
of the value stands whole on one line, and the width does not matter. -/
theorem rich_content_reads_back {v : Json.Value} (floatFree : v.FloatFree) (shallow : v.nesting ≤ Json.depthLimit)
    (name : String) (width : Nat) (symbol : String) :
    ∃ lines, (content name (.rich v)).render width symbol = Text.styled .bold name :: lines ∧
      "\n".intercalate lines = v.pretty ∧ Json.Value.read ("\n".intercalate lines) = .ok v ∧
      (∀ line ∈ lines, Json.InLine line.toList) ∧
      (∀ s, v.HasText s → ∃ line ∈ lines, Json.printString s <:+: line.toList) ∧
      ∀ other, (content name (.rich v)).render other symbol = Text.styled .bold name :: lines := by
  have joined : "\n".intercalate (Text.lines v.pretty) = v.pretty := v.intercalate_lines_pretty
  refine ⟨Text.lines v.pretty, rfl, joined, ?_, ?_, ?_, fun other => rfl⟩
  · rw [joined]
    exact Json.Value.read_pretty floatFree shallow
  · exact fun line listed => Json.Value.inLine_of_mem_lines listed
  · exact fun s held => held.exists_line

theorem rich_content_reads_back_in_sample :
    let v : Json.Value := .object [("a\r\nb", .array [.string "\u2028\n\u0085", .null])]
    v.FloatFree ∧ v.nesting ≤ Json.depthLimit ∧ v.HasText "a\r\nb" ∧
      ∃ lines, (content "note" (.rich v)).render 3 "$" = Text.styled .bold "note" :: lines ∧
        Json.Value.read ("\n".intercalate lines) = .ok v ∧ ∃ line ∈ lines, Json.printString "a\r\nb" <:+: line.toList := by
  intro v
  have floatFree : v.FloatFree :=
    .object (List.forall_mem_singleton.mpr (.array (List.forall_mem_cons.mpr ⟨.string _, List.forall_mem_singleton.mpr .null⟩)))
  have shallow : v.nesting ≤ Json.depthLimit := by decide
  have held : v.HasText "a\r\nb" := Json.Value.HasText.key List.mem_cons_self
  obtain ⟨lines, shown, -, read, -, whole, -⟩ := rich_content_reads_back floatFree shallow "note" 3 "$"
  exact ⟨floatFree, shallow, held, lines, shown, read, whole _ held⟩

end Payload

end PortfolioShell
