import PortfolioShell.Terminal.InputLine

/-! # Line editor

A plain editor to compare the input line with: the characters before the cursor, the nearest first, and those
behind it. Every key works at the heads of two lists, so the cursor cannot leave the line and no byte is
counted. `InputLine.Shows` says that an input line is the line of an editor; each edit of it then has no fault
and is the edit of the editor. -/

namespace PortfolioShell.Terminal

structure LineEditor where
  before : List Char
  after : List Char
  deriving DecidableEq, Repr

namespace LineEditor

def empty : LineEditor := ⟨[], []⟩

def toList (e : LineEditor) : List Char := e.before.reverse ++ e.after

def toText (e : LineEditor) : String := String.ofList e.toList

def cursor (e : LineEditor) : Nat := e.before.length

/-- A line with the cursor at its end. -/
def ofText (text : String) : LineEditor := ⟨text.toList.reverse, []⟩

def insert (e : LineEditor) (c : Char) : LineEditor := ⟨c :: e.before, e.after⟩

/-- Without the character before the cursor, if there is one. -/
def erase : LineEditor → LineEditor
  | ⟨[], after⟩ => ⟨[], after⟩
  | ⟨_ :: before, after⟩ => ⟨before, after⟩

def left : LineEditor → LineEditor
  | ⟨[], after⟩ => ⟨[], after⟩
  | ⟨c :: before, after⟩ => ⟨before, c :: after⟩

def right : LineEditor → LineEditor
  | ⟨before, []⟩ => ⟨before, []⟩
  | ⟨before, c :: after⟩ => ⟨c :: before, after⟩

theorem length_toList (e : LineEditor) : e.toList.length = e.cursor + e.after.length := by
  simp [toList, cursor]

theorem take_cursor (e : LineEditor) : e.toList.take e.cursor = e.before.reverse := by
  simp [toList, cursor]

theorem drop_cursor (e : LineEditor) : e.toList.drop e.cursor = e.after := by
  simp [toList, cursor]

theorem toList_eq_nil_iff (e : LineEditor) : e.toList = [] ↔ e = .empty := by
  obtain ⟨before, after⟩ := e
  simp [toList, empty]

theorem toList_ofText (text : String) : (ofText text).toList = text.toList := by
  simp [ofText, toList]

theorem cursor_ofText (text : String) : (ofText text).cursor = text.toList.length := by
  simp [ofText, cursor]

theorem toList_insert (e : LineEditor) (c : Char) :
    (e.insert c).toList = e.toList.take e.cursor ++ c :: e.toList.drop e.cursor := by
  rw [take_cursor, drop_cursor]
  simp [insert, toList]

theorem cursor_insert (e : LineEditor) (c : Char) : (e.insert c).cursor = e.cursor + 1 := rfl

theorem toList_erase (e : LineEditor) :
    e.erase.toList = e.toList.take (e.cursor - 1) ++ e.toList.drop e.cursor := by
  rw [drop_cursor]
  obtain ⟨_ | ⟨c, before⟩, after⟩ := e
  · simp [erase, toList, cursor]
  · simp [erase, toList, cursor]

theorem cursor_erase (e : LineEditor) : e.erase.cursor = e.cursor - 1 := by
  obtain ⟨_ | ⟨c, before⟩, after⟩ := e <;> rfl

theorem toList_left (e : LineEditor) : e.left.toList = e.toList := by
  obtain ⟨_ | ⟨c, before⟩, after⟩ := e
  · rfl
  · simp [left, toList]

theorem cursor_left (e : LineEditor) : e.left.cursor = e.cursor - 1 := by
  obtain ⟨_ | ⟨c, before⟩, after⟩ := e <;> rfl

theorem toList_right (e : LineEditor) : e.right.toList = e.toList := by
  obtain ⟨before, _ | ⟨c, after⟩⟩ := e
  · rfl
  · simp [right, toList]

theorem cursor_right (e : LineEditor) : e.right.cursor = min (e.cursor + 1) e.toList.length := by
  rw [length_toList]
  obtain ⟨before, _ | ⟨c, after⟩⟩ := e
  · simp [right, cursor]
  · simp [right, cursor]

end LineEditor

namespace InputLine

/-! ### Where characters begin -/

theorem utf8ByteSize_ofList (s : List Char) : (String.ofList s).utf8ByteSize = Text.byteCount s := by
  induction s with
  | nil => rfl
  | cons c rest ih =>
    rw [String.ofList_cons, String.utf8ByteSize_append, String.utf8ByteSize_singleton, ih, Text.byteCount]

/-- The byte at which a character begins is a place to cut, and it cuts before that character. -/
theorem cutAt_byteOffset (text : String) (position : Nat) : cutAt text (byteOffset text position) =
    .ok (String.ofList (text.toList.take position), String.ofList (text.toList.drop position)) := by
  have parts : text = String.ofList (text.toList.take position) ++ String.ofList (text.toList.drop position) := by
    rw [← String.ofList_append, List.take_append_drop, String.ofList_toList]
  have offset : (⟨byteOffset text position⟩ : String.Pos.Raw) =
      (String.ofList (text.toList.take position)).rawEndPos := by
    rw [byteOffset, ← utf8ByteSize_ofList]
    rfl
  have valid : String.Pos.Raw.IsValid text ⟨byteOffset text position⟩ :=
    String.Pos.Raw.isValid_iff_exists_append.mpr ⟨_, _, parts, offset⟩
  have splits : (text.pos _ valid).Splits (String.ofList (text.toList.take position))
      (String.ofList (text.toList.drop position)) := ⟨parts, offset⟩
  rw [cutAt, dif_pos valid]
  simp only [splits.copy_sliceTo_eq, splits.copy_sliceFrom_eq]

theorem insertAt_byteOffset (text : String) (position : Nat) (c : Char) : insertAt text (byteOffset text position) c =
    .ok (String.ofList (text.toList.take position ++ c :: text.toList.drop position)) := by
  rw [insertAt, cutAt_byteOffset, String.ofList_append, String.ofList_cons, ← String.append_assoc]
  rfl

theorem removeAt_byteOffset {text : String} {position : Nat} (inside : position < text.toList.length) :
    removeAt text (byteOffset text position) =
      .ok (String.ofList (text.toList.take position ++ text.toList.drop (position + 1))) := by
  have split : text.toList.drop position = text.toList[position] :: text.toList.drop (position + 1) :=
    List.drop_eq_getElem_cons inside
  rw [removeAt, cutAt_byteOffset, String.ofList_append]
  simp only [bind, Except.bind, String.toList_ofList, split]
  rfl

/-! ### The line of an editor -/

/-- The input line has the text and the cursor of an editor. -/
structure Shows (l : InputLine) (e : LineEditor) : Prop where
  text : l.text.toList = e.toList
  cursor : l.cursor = e.cursor

variable {l : InputLine} {e : LineEditor}

theorem shows_ofText (text : String) : (ofText text).Shows (.ofText text) where
  text := (LineEditor.toList_ofText text).symm
  cursor := by rw [LineEditor.cursor_ofText, String.length_toList, ofText]

theorem shows_empty : empty.Shows .empty := ⟨rfl, rfl⟩

namespace Shows

theorem text_eq (shows : l.Shows e) : l.text = e.toText := by
  rw [LineEditor.toText, ← shows.text, String.ofList_toList]

theorem unique (shows : l.Shows e) {m : InputLine} (other : m.Shows e) : l = m := by
  obtain ⟨text, cursor⟩ := l
  have texts : text = m.text := shows.text_eq.trans other.text_eq.symm
  have cursors : cursor = m.cursor := shows.cursor.trans other.cursor.symm
  rw [texts, cursors]

theorem length_eq (shows : l.Shows e) : l.length = e.cursor + e.after.length := by
  rw [length, ← String.length_toList, shows.text, e.length_toList]

theorem cursor_le_length (shows : l.Shows e) : l.cursor ≤ l.length := by
  rw [shows.cursor, shows.length_eq]
  exact Nat.le_add_right _ _

theorem isEmpty_iff (shows : l.Shows e) : l.isEmpty = true ↔ e = .empty := by
  rw [isEmpty, decide_eq_true_iff, ← e.toList_eq_nil_iff, ← shows.text, String.toList_eq_nil_iff]

theorem behindCursor (shows : l.Shows e) : l.behindCursor = .ok e.after.length := by
  have count : l.length - l.cursor = e.after.length := by
    rw [shows.length_eq, shows.cursor]
    omega
  rw [InputLine.behindCursor, if_pos shows.cursor_le_length, count]

theorem insert (shows : l.Shows e) (c : Char) : ∃ m, l.insert c = .ok m ∧ m.Shows (e.insert c) := by
  refine ⟨⟨String.ofList (e.insert c).toList, (e.insert c).cursor⟩, ?_, String.toList_ofList, rfl⟩
  rw [InputLine.insert, insertAt_byteOffset, shows.text, shows.cursor, e.toList_insert, e.cursor_insert]
  rfl

theorem removeBefore (shows : l.Shows e) (moves : l.cursor ≠ 0) :
    ∃ m, l.removeBefore = .ok m ∧ m.Shows e.erase := by
  have cursor := shows.cursor
  have inside : l.cursor - 1 < l.text.toList.length := by
    rw [shows.text, e.length_toList]
    omega
  have next : l.cursor - 1 + 1 = e.cursor := by omega
  refine ⟨⟨String.ofList e.erase.toList, e.erase.cursor⟩, ?_, String.toList_ofList, rfl⟩
  rw [InputLine.removeBefore, removeAt_byteOffset inside, next, shows.text, cursor, e.toList_erase, e.cursor_erase]
  rfl

theorem left (shows : l.Shows e) : l.left.Shows e.left where
  text := by rw [InputLine.left, shows.text, e.toList_left]
  cursor := by rw [InputLine.left, shows.cursor, e.cursor_left]

theorem right (shows : l.Shows e) (moves : l.cursor < l.length) : l.right.Shows e.right where
  text := by rw [InputLine.right, shows.text, e.toList_right]
  cursor := by
    have below : e.cursor + 1 ≤ e.toList.length := by
      rw [e.length_toList, ← shows.length_eq, ← shows.cursor]
      exact moves
    rw [InputLine.right, shows.cursor, e.cursor_right, Nat.min_eq_left below]

/-- At an end of the line the editor has nothing to erase or to pass. -/
theorem stays_at_start (shows : l.Shows e) (start : l.cursor = 0) : e.erase = e ∧ e.left = e := by
  obtain ⟨_ | ⟨c, before⟩, after⟩ := e
  · exact ⟨rfl, rfl⟩
  · exact absurd (shows.cursor.symm.trans start) (Nat.succ_ne_zero _)

theorem stays_at_end (shows : l.Shows e) (fully : ¬ l.cursor < l.length) : e.right = e := by
  obtain ⟨before, _ | ⟨c, after⟩⟩ := e
  · rfl
  · rw [shows.length_eq, shows.cursor, List.length_cons] at fully
    omega

end Shows

end InputLine

end PortfolioShell.Terminal
