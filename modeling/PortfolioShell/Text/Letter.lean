import PortfolioShell.Text.Blank
import PortfolioShell.Text.ClassTable

/-! # Letters and numbers

Which characters are letters and which are letters or numbers, in all of Unicode. -/

namespace PortfolioShell.Text

def isAlphabetic (c : Char) : Bool :=
  if c.toNat < 128 then c.isAlpha else inRanges alphabeticRanges c

def isAlphanumeric (c : Char) : Bool :=
  if c.toNat < 128 then c.isAlphanum else inRanges alphabeticRanges c || inRanges numberRanges c

end PortfolioShell.Text
