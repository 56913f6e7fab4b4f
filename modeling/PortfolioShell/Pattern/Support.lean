import PortfolioShell.Pattern.Reader

/-! # Patterns that can be matched

Texts are matched as Unicode unless a pattern switches that off. Patterns know the classes and the letter
cases of ASCII only, so as Unicode neither shorthands nor characters in either case can be matched. As bytes
they can be, but nothing may match a byte that is no character. -/

namespace PortfolioShell

namespace Pattern

/-! ### Modes -/

structure Mode where
  ignoreCase : Bool
  unicode : Bool
  deriving DecidableEq, Repr

def Mode.initial : Mode := ⟨false, true⟩

def Mode.switch (m : Mode) (s : Switches) : Mode :=
  ⟨s.state .ignoreCase m.ignoreCase, s.state .unicode m.unicode⟩

mutual

def atoms (m : Mode) : Pattern → List (Mode × Atom) × Mode
  | .empty => ([], m)
  | .atom a => ([(m, a)], m)
  | .switches s => ([], m.switch s)
  | .repeated p => atoms m p
  | .group s p => ((atoms (m.switch s) p).1, m)
  | .sequence ps => atomsOfAll m ps
  | .choice ps => atomsOfAll m ps

def atomsOfAll (m : Mode) : List Pattern → List (Mode × Atom) × Mode
  | [] => ([], m)
  | p :: ps =>
    let (first, m) := atoms m p
    let (others, m) := atomsOfAll m ps
    (first ++ others, m)

end

/-! ### Atoms that can be matched -/

def isAscii (c : Char) : Bool := c.toNat < 128

/-- Can something be matched, given whether it can be as a byte? As Unicode it can be in its own case. -/
def Mode.supports (m : Mode) (asByte : Bool) : Bool := if m.unicode then !m.ignoreCase else asByte

mutual

/-- Can a class be matched? A class that is matched as bytes has ASCII characters only, so none may be
negated. -/
def CharClass.isSupported (m : Mode) : CharClass → Bool
  | .empty => true
  | .char c => m.supports (isAscii c)
  | .range first last => m.supports (isAscii first && isAscii last)
  | .named negated => m.supports !negated
  | .shorthand negated => !m.unicode && !negated
  | .bracket negated inside => (m.unicode || !negated) && inside.isSupported m
  | .union parts => CharClass.allSupported m parts
  | .operation left right => left.isSupported m && right.isSupported m

def CharClass.allSupported (m : Mode) : List CharClass → Bool
  | [] => true
  | part :: parts => part.isSupported m && CharClass.allSupported m parts

end

/-- Can an atom be matched? A character is one also where it is matched as bytes, unless it is written as a
byte. -/
def Atom.isSupported (m : Mode) : Atom → Bool
  | .char c byte => m.supports (!byte || isAscii c)
  | .any => m.unicode
  | .anchor => true
  | .boundary => true
  | .charClass cls => cls.isSupported m

def Atom.isUnicodeBoundary (m : Mode) : Atom → Bool
  | .boundary => m.unicode
  | _ => false

/-! ### Faults -/

inductive Fault where
  | unsupported
  | unicodeBoundary
  deriving DecidableEq, Repr

def Fault.message : Fault → String
  | .unsupported => "error building NFA"
  | .unicodeBoundary =>
    "unsupported regex feature for DFAs: cannot build DFAs for regexes with Unicode word boundaries; " ++
      "switch to ASCII word boundaries, or heuristically enable Unicode word boundaries or use a " ++
      "different regex engine"

def depthLimit : Nat := 250

def fault? (text : String) : Option Fault :=
  match read? text with
  | none => some .unsupported
  | some p =>
    let atoms := (p.atoms .initial).1
    if depthLimit < p.depth || atoms.any (fun (m, a) => !a.isSupported m) then some .unsupported
    else if atoms.any (fun (m, a) => a.isUnicodeBoundary m) then some .unicodeBoundary
    else none

end Pattern

end PortfolioShell
