import PortfolioShell.Text.Lowercase

/-! # Numerals

Which texts write a number: decimal digits with a point anywhere among them, a power of ten after them, or a
name for what has no digits, and a sign before all of it. -/

namespace PortfolioShell.Decimal

def numberNames : List String := ["inf", "infinity", "nan"]

def dropSign (s : List Char) : List Char :=
  if s.head? = some '+' || s.head? = some '-' then s.drop 1 else s

def isPowerOrEmpty : List Char → Bool
  | [] => true
  | c :: rest =>
    let digits := dropSign rest
    (c = 'e' || c = 'E') && !digits.isEmpty && digits.all Char.isDigit

def isPlainNumeral (s : List Char) : Bool :=
  let whole := s.takeWhile Char.isDigit
  let after := s.dropWhile Char.isDigit
  let fraction := if after.head? = some '.' then (after.drop 1).takeWhile Char.isDigit else []
  let power := if after.head? = some '.' then (after.drop 1).dropWhile Char.isDigit else after
  !(whole ++ fraction).isEmpty && isPowerOrEmpty power

def isNumeral (s : String) : Bool :=
  let size := dropSign s.toList
  isPlainNumeral size || numberNames.any (Text.equalIgnoringAsciiCase · (String.ofList size))

end PortfolioShell.Decimal
