import PortfolioShell.Text.Bytes

/-! # Input line

The line that is being typed, as it stands in memory: a text in UTF-8, and a cursor that counts characters. An
edit at the cursor first finds the byte at which a character begins and then changes the text at that byte,
which is possible only where a character begins. What is not possible is a fault of the program. -/

namespace PortfolioShell.Terminal

inductive LineFault where
  /-- The byte lies inside of a character or behind the end of the text. -/
  | insideCharacter (offset : Nat)
  /-- There is nothing to remove at the end of the text. -/
  | nothingToRemove
  | cursorBehindEnd
  deriving DecidableEq, Repr

structure InputLine where
  text : String
  /-- The number of characters before the cursor. -/
  cursor : Nat
  deriving DecidableEq, Repr

namespace InputLine

/-! ### Edits at a byte -/

/-- The byte at which the character at a position begins; behind the last one it is the end of the text. -/
def byteOffset (text : String) (position : Nat) : Nat := Text.byteCount (text.toList.take position)

def cutAt (text : String) (offset : Nat) : Except LineFault (String × String) :=
  if h : String.Pos.Raw.IsValid text ⟨offset⟩ then
    let cut := text.pos ⟨offset⟩ h
    .ok ((text.sliceTo cut).copy, (text.sliceFrom cut).copy)
  else .error (.insideCharacter offset)

def insertAt (text : String) (offset : Nat) (c : Char) : Except LineFault String := do
  let (front, back) ← cutAt text offset
  return front ++ String.singleton c ++ back

def removeAt (text : String) (offset : Nat) : Except LineFault String := do
  let (front, back) ← cutAt text offset
  match back.toList with
  | [] => throw .nothingToRemove
  | _ :: rest => return front ++ String.ofList rest

/-! ### Edits at the cursor -/

def empty : InputLine := ⟨"", 0⟩

def isEmpty (l : InputLine) : Bool := l.text = ""

def length (l : InputLine) : Nat := l.text.length

/-- A line with the cursor at its end. -/
def ofText (text : String) : InputLine := ⟨text, text.length⟩

def insert (l : InputLine) (c : Char) : Except LineFault InputLine := do
  let text ← insertAt l.text (byteOffset l.text l.cursor) c
  return ⟨text, l.cursor + 1⟩

/-- Removes the character before the cursor, which is not at the start. -/
def removeBefore (l : InputLine) : Except LineFault InputLine := do
  let text ← removeAt l.text (byteOffset l.text (l.cursor - 1))
  return ⟨text, l.cursor - 1⟩

def left (l : InputLine) : InputLine := { l with cursor := l.cursor - 1 }

def right (l : InputLine) : InputLine := { l with cursor := l.cursor + 1 }

/-- How many characters stand behind the cursor. -/
def behindCursor (l : InputLine) : Except LineFault Nat :=
  if l.cursor ≤ l.length then .ok (l.length - l.cursor) else .error .cursorBehindEnd

end InputLine

end PortfolioShell.Terminal
