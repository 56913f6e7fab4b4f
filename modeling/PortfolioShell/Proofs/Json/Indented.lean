import PortfolioShell.Proofs.Json.Passing
import PortfolioShell.Proofs.Json.RoundTrip

/-! # An indented value is read back

The indented form of a value differs from the compact one in the blanks before its items, its keys, its values and
its closing brackets. Readers pass over all of them, so the same value is read. -/

namespace PortfolioShell.Json

theorem allBlank_newLine (depth : Nat) : AllBlank (newLine depth) := by
  intro c hc
  rcases List.mem_cons.mp hc with rfl | hc
  · rfl
  · rw [List.eq_of_mem_replicate hc]
    rfl

/-- Blanks in front of a value do not matter. -/
theorem Yields.behind {depth : Nat} {text gap : List Char} {v : Value} (h : Yields (readValue depth) text v)
    (blank : AllBlank gap) : Yields (readValue depth) (gap ++ text) v := fun rest ends => by
  obtain ⟨array, object, reader⟩ := readValue_eq depth
  have read := h rest ends
  rw [reader] at read ⊢
  rwa [List.append_assoc, readValueWith, skipBlanks_append blank, ← readValueWith]

/-! ### Items and members -/

section

variable {depth level : Nat}

theorem itemsText_indentedItems {items : List Value} (some : items ≠ [])
    (each : ∀ v ∈ items, Yields (readValue depth) (printIndented level v) v) :
    ItemsText (readValue depth) (indentedItems level items) items := by
  induction items with
  | nil => exact absurd rfl some
  | cons v rest ih =>
    obtain ⟨first, each⟩ := List.forall_mem_cons.mp each
    have first := first.behind (allBlank_newLine level)
    cases rest with
    | nil =>
      rw [indentedItems, List.append_assoc _ (newLine (level - 1))]
      exact .last first (allBlank_newLine _)
    | cons w rest => exact .more first allBlank_nil (ih (List.cons_ne_nil w rest) each)

theorem membersText_indentedMembers {before members : List (String × Value)} (some : members ≠ [])
    (each : ∀ m ∈ members, Yields (readValue depth) (printIndented level m.2) m.2) :
    ∃ text, indentedMembers level members = newLine level ++ '"' :: text ∧
      MembersText readString (keepMember depth) before text (before ++ members) := by
  induction members generalizing before with
  | nil => exact absurd rfl some
  | cons m rest ih =>
    obtain ⟨k, v⟩ := m
    obtain ⟨value, each⟩ := List.forall_mem_cons.mp each
    have blank : AllBlank [' '] := by simp [AllBlank, isJsonBlank]
    have first : Yields (keepMember depth before k) (':' :: ([' '] ++ printIndented level v)) (before ++ [(k, v)]) :=
      ((value.behind blank).map fun v => before ++ [(k, v)]).afterColon
    cases rest with
    | nil =>
      refine ⟨printedTail k ++ (':' :: ([' '] ++ printIndented level v) ++ (newLine (level - 1) ++ ['\x7d'])), ?_, ?_⟩
      · simp [indentedMembers, printString_eq]
      · exact .last (reads_readString k) first (allBlank_newLine _)
    | cons n rest =>
      obtain ⟨text, printed, following⟩ := @ih (before ++ [(k, v)]) (List.cons_ne_nil n rest) each
      refine ⟨printedTail k ++ (':' :: ([' '] ++ printIndented level v) ++ ',' :: (newLine level ++ '"' :: text)), ?_, ?_⟩
      · simp [indentedMembers, printString_eq, printed]
      · rw [List.append_cons before (k, v) (n :: rest)]
        exact .more (reads_readString k) first allBlank_nil (allBlank_newLine level) following

end

/-! ### Values -/

theorem Value.FloatFree.yields_indented {v : Value} (floatFree : v.FloatFree) {depth : Nat}
    (shallow : v.nesting ≤ depth) (level : Nat) : Yields (readValue depth) (printIndented level v) v := by
  induction floatFree generalizing depth level with
  | null => exact FloatFree.null.yields shallow
  | bool b => exact (FloatFree.bool b).yields shallow
  | whole n => exact (FloatFree.whole n).yields shallow
  | string s => exact (FloatFree.string s).yields shallow
  | @array items below ih =>
    cases items with
    | nil => exact (FloatFree.array below).yields shallow
    | cons v rest =>
      obtain ⟨depth, rfl⟩ : ∃ d, depth = d + 1 := ⟨depth - 1, by simp [nesting] at shallow; omega⟩
      have each : ∀ w ∈ v :: rest, Yields (readValue depth) (printIndented (level + 1) w) w := fun w hw =>
        ih w hw (nesting_array_le_iff.mp shallow w hw) (level + 1)
      intro others ends
      have read := (itemsText_indentedItems (List.cons_ne_nil v rest) each).readArray (declines_readValue depth) others
      rw [printIndented.eq_2 _ _ (List.cons_ne_nil v rest), List.cons_append, readValue, readValueWith_bracket]
      simp only [read]
      rfl
  | @object members below ih =>
    cases members with
    | nil => exact (FloatFree.object below).yields shallow
    | cons m rest =>
      obtain ⟨depth, rfl⟩ : ∃ d, depth = d + 1 := ⟨depth - 1, by simp [nesting] at shallow; omega⟩
      have each : ∀ n ∈ m :: rest, Yields (readValue depth) (printIndented (level + 1) n.2) n.2 := fun n hn =>
        ih n hn (nesting_object_le_iff.mp shallow n hn) (level + 1)
      obtain ⟨text, printed, following⟩ :=
        @membersText_indentedMembers _ _ [] (m :: rest) (List.cons_ne_nil m rest) each
      intro others ends
      have read := following.readObject (allBlank_newLine (level + 1)) others
      rw [printIndented.eq_4 _ _ (List.cons_ne_nil m rest), printed, List.cons_append, readValue, readValueWith_brace]
      exact congrArg (Except.map _) read

theorem Value.read_pretty {v : Value} (floatFree : v.FloatFree) (shallow : v.nesting ≤ depthLimit) :
    Value.read v.pretty = .ok v := by
  have read := floatFree.yields_indented shallow 0 [] ends_nil
  rw [List.append_nil] at read
  exact readDocument_eq_ok_iff.mpr ⟨[], by rw [pretty, String.toList_ofList, read], rfl⟩

end PortfolioShell.Json
