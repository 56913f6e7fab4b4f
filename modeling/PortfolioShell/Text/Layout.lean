import PortfolioShell.Text.Blank
import PortfolioShell.Text.Lines

/-! # Layout on a terminal

Filling lines with words, and cutting and padding a text to a width. A width counts characters. -/

namespace PortfolioShell.Text

/-! ### Filling -/

/-- Fills lines with `words`, `current` being the line so far. A line that is not empty takes one more
word if a space and the word still fit; a word too long for any line stands alone. -/
def fill (width : Nat) (current : List Char) : List (List Char) → List (List Char)
  | [] => [current]
  | word :: rest =>
    if current = [] then fill width word rest
    else if current.length + 1 + word.length ≤ width then fill width (current ++ ' ' :: word) rest
    else current :: fill width word rest

def wrapLine (width : Nat) (line : List Char) : List (List Char) :=
  fill width [] (line.splitOn ' ')

def wrapList (width : Nat) (s : List Char) : List (List Char) :=
  if s = [] then [[]] else (lineList s).flatMap (wrapLine width)

def wrap (width : Nat) (s : String) : List String := (wrapList width s.toList).map String.ofList

/-! ### Cutting and padding -/

/-- The text, cut to the width if it is longer; with `ellipsis` the last three characters of what is
left are dots, if the width has room for more than the dots. -/
def truncateList (width : Nat) (ellipsis : Bool) (s : List Char) : List Char :=
  if s.length ≤ width then s
  else if ellipsis && 3 < width then s.take (width - 3) ++ ['.', '.', '.']
  else s.take width

def truncate (width : Nat) (ellipsis : Bool) (s : String) : String :=
  String.ofList (truncateList width ellipsis s.toList)

def padList (width : Nat) (s : List Char) : List Char :=
  s ++ List.replicate (width - s.length) ' '

def pad (width : Nat) (s : String) : String := String.ofList (padList width s.toList)

def padLeft (width : Nat) (s : String) : String :=
  String.ofList (List.replicate (width - s.length) ' ' ++ s.toList)

end PortfolioShell.Text
