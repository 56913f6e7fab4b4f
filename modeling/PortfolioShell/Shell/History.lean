import PortfolioShell.Text.Layout
import PortfolioShell.Text.Lowercase

/-! # History

The lines that have been entered, oldest first, and a cursor for walking back and forth among them. Without
a cursor the walk stands behind the newest entry. -/

namespace PortfolioShell

structure History where
  entries : List String
  cursor : Option Nat
  deriving DecidableEq, Repr

namespace History

def empty : History := ⟨[], none⟩

def add (h : History) (line : String) : History := ⟨h.entries ++ [line], none⟩

theorem entries_add (h : History) (line : String) : (h.add line).entries = h.entries ++ [line] := rfl

/-- One entry back, or the newest one if there is no cursor; the oldest one stays. -/
def previous (h : History) : Option String × History :=
  if h.entries = [] then (none, h)
  else
    let index := match h.cursor with
      | none => h.entries.length - 1
      | some i => i - 1
    (h.entries[index]?, { h with cursor := some index })

/-- One entry forth; after the newest one there is no cursor. -/
def next (h : History) : Option String × History :=
  match h.cursor with
  | none => (none, h)
  | some i =>
    if i + 1 < h.entries.length then (h.entries[i + 1]?, { h with cursor := some (i + 1) })
    else (none, { h with cursor := none })

def occursIn (part : List Char) : List Char → Bool
  | [] => part.isEmpty
  | c :: rest => part.isPrefixOf (c :: rest) || occursIn part rest

def search (h : History) (pattern : String) : List String :=
  h.entries.reverse.filter fun line => occursIn (Text.lowerChars pattern.toList) (Text.lowerChars line.toList)

def summary (h : History) : List String :=
  h.entries.mapIdx fun i line => Text.padLeft 4 (toString (i + 1)) ++ "  " ++ line

end History

end PortfolioShell
