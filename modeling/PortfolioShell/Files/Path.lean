import PortfolioShell.Text.Lines

/-! # Paths

The path of a file as the names on the way to it, counted from the working directory or, after a leading
slash, from the root of all files. -/

namespace PortfolioShell

structure Path where
  isAbsolute : Bool
  names : List String
  endsOpen : Bool
  deriving DecidableEq, Repr

namespace Path

def ofText (path : String) : Path where
  isAbsolute := path.toList.head? = some '/'
  names := (Text.split '/' path).filter (· ≠ "")
  endsOpen := path.toList.getLast? = some '/'

def toText (p : Path) : String :=
  (if p.isAbsolute then "/" else "") ++ String.intercalate "/" p.names ++
    if p.endsOpen && p.names ≠ [] then "/" else ""

/-- The path of the directory that a path lies in, if it names anything but the root of all files. A name of
one dot does not count. -/
def parent? (p : Path) : Option Path :=
  let names := p.names.filter (· ≠ ".")
  if names = [] then none else some ⟨p.isAbsolute, names.dropLast, false⟩

end Path

end PortfolioShell
