import PortfolioShell.Text.Blank

/-! # Command lines

A typed line is a first word and what follows it, without the blanks around and between them. -/

namespace PortfolioShell

structure CommandLine where
  word : String
  /-- What follows it, with its inner blanks. -/
  args : String
  deriving DecidableEq, Repr

namespace CommandLine

/-- The parts of a line; a line of blanks has none. -/
def parse? (line : String) : Option CommandLine :=
  match Text.dropEnds line.toList with
  | [] => none
  | text => some ⟨String.ofList (Text.firstWord text), String.ofList (Text.dropStart (Text.afterWord text))⟩

def hasArgs (c : CommandLine) : Bool := c.args ≠ ""

end CommandLine

end PortfolioShell
