import PortfolioShell.Text.Blank
import PortfolioShell.Text.CaseTable

/-! # Lower case

Full Unicode lower-casing of a text. Every character is mapped alone, with two exceptions: a dotted
capital I becomes an i and a combining dot, and a capital sigma that ends a word becomes a final
sigma. A sigma ends a word when a cased letter comes before it and none comes after it, marks that a
word may hold being passed over on both sides. -/

namespace PortfolioShell.Text

def lowerCode (n : Nat) : Nat :=
  match capitalRuns.find? fun (first, last, step, _) => first ≤ n && n ≤ last && (n - first) % step = 0 with
  | some (first, _, _, image) => image + (n - first)
  | none => n

def lowerChar (c : Char) : List Char :=
  if c.toNat < 128 then [c.toLower]
  else if c = 'İ' then ['i', '\u0307']
  else [Char.ofNat (lowerCode c.toNat)]

def startsCased (s : List Char) : Bool :=
  match s.dropWhile (inRanges caseIgnorableRanges) with
  | [] => false
  | c :: _ => inRanges casedRanges c

/-- Lower-cases `s`; `before` holds the characters in front of it, the nearest first. -/
def lowerAfter (before : List Char) : List Char → List Char
  | [] => []
  | c :: rest =>
    (if c = 'Σ' then [if startsCased before && !startsCased rest then 'ς' else 'σ'] else lowerChar c) ++
      lowerAfter (c :: before) rest

def lowerChars (s : List Char) : List Char := lowerAfter [] s

def lowercase (s : String) : String := String.ofList (lowerChars s.toList)

def equalIgnoringAsciiCase (s t : String) : Bool :=
  s.toList.map Char.toLower = t.toList.map Char.toLower

end PortfolioShell.Text
