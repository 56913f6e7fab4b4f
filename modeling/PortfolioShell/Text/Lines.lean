/-! # Lines and fields

Cutting a text at a separator. A field ends where the separator stands, so there is one field more than
there are separators; a line ends at a line feed, and no line follows the last line feed. -/

namespace PortfolioShell.Text

def split (sep : Char) (s : String) : List String := (s.toList.splitOn sep).map String.ofList

def dropReturn (s : List Char) : List Char :=
  if s.getLast? = some '\r' then s.dropLast else s

/-- The lines of a text. What follows the last line feed is a line if it is not empty, and it keeps a
carriage return at its end. -/
def lineList (s : List Char) : List (List Char) :=
  let fields := s.splitOn '\n'
  fields.dropLast.map dropReturn ++ (fields.getLast?.toList.filter (· ≠ []))

def lines (s : String) : List String := (lineList s.toList).map String.ofList

end PortfolioShell.Text
