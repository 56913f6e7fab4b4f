/-! # Blank characters

Blanks are the characters with the Unicode property `White_Space`. They separate words, and they are
dropped at the ends of a typed line. Every text is cut in one way only: a word is the longest piece
without a blank, and what follows it starts with a blank. -/

namespace PortfolioShell.Text

/-- The code points with property `White_Space`, as inclusive ranges. -/
def blankRanges : List (Nat × Nat) :=
  [(9, 13), (32, 32), (133, 133), (160, 160), (5760, 5760), (8192, 8202), (8232, 8233),
   (8239, 8239), (8287, 8287), (12288, 12288)]

def inRanges (ranges : List (Nat × Nat)) (c : Char) : Bool :=
  ranges.any fun (first, last) => first ≤ c.toNat && c.toNat ≤ last

def isBlank (c : Char) : Bool := inRanges blankRanges c

/-! ### Trimming -/

def dropStart (s : List Char) : List Char := s.dropWhile isBlank

def dropEnd (s : List Char) : List Char := (s.reverse.dropWhile isBlank).reverse

def dropEnds (s : List Char) : List Char := dropEnd (dropStart s)

def trimmed (s : String) : String := String.ofList (dropEnds s.toList)

def trimmedStart (s : String) : String := String.ofList (dropStart s.toList)

/-! ### The first word -/

def firstWord (s : List Char) : List Char := s.takeWhile (!isBlank ·)

def afterWord (s : List Char) : List Char := s.dropWhile (!isBlank ·)

theorem firstWord_append_afterWord (s : List Char) : firstWord s ++ afterWord s = s :=
  List.takeWhile_append_dropWhile

end PortfolioShell.Text
