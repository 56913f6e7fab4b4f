import PortfolioShell.Text.Blank
import PortfolioShell.Text.ClassTable

/-! # Quoted text

A text between double quotes in which every character can be seen: controls, unassigned code points and
marks that would join the character before them are written as escapes. -/

namespace PortfolioShell.Text

def isPlain (c : Char) : Bool :=
  if c.toNat < 128 then 32 ≤ c.toNat && c.toNat < 127
  else !inRanges unprintableRanges c && !inRanges extenderRanges c

def quotedChar (c : Char) : List Char :=
  if c = '\x00' then ['\\', '0']
  else if c = '\t' then ['\\', 't']
  else if c = '\r' then ['\\', 'r']
  else if c = '\n' then ['\\', 'n']
  else if c = '\\' || c = '"' then ['\\', c]
  else if isPlain c then [c]
  else ['\\', 'u', '\x7b'] ++ Nat.toDigits 16 c.toNat ++ ['\x7d']

def quotedList (s : List Char) : List Char := '"' :: s.flatMap quotedChar ++ ['"']

def quoted (s : String) : String := String.ofList (quotedList s.toList)

end PortfolioShell.Text
