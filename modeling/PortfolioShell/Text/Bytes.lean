/-! # Bytes

How many bytes a text takes in UTF-8, and parts of a text by byte offsets. -/

namespace PortfolioShell.Text

def byteCount : List Char → Nat
  | [] => 0
  | c :: rest => c.utf8Size + byteCount rest

/-- The characters that begin at a byte offset from `first` up to before `last`. -/
def bytesBetween (first last : Nat) (s : List Char) : List Char := go 0 s
where
  go (offset : Nat) : List Char → List Char
    | [] => []
    | c :: rest => (if first ≤ offset && offset < last then [c] else []) ++ go (offset + c.utf8Size) rest

end PortfolioShell.Text
