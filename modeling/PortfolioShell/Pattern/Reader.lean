import PortfolioShell.Pattern.Class
import PortfolioShell.Text.Letter

/-! # Reading patterns

The readers for groups, repetitions and branches. A group holds branches between bars, and a branch is a row
of parts. The switches in a group hold up to its closing parenthesis, and no two groups have one name. -/

namespace PortfolioShell

namespace Pattern

/-! ### What opens a group -/

inductive Opening where
  | group (s : Switches) (name : Option String)
  | switches (s : Switches)

def isGroupName : List Char → Bool
  | [] => false
  | c :: rest =>
    (c = '_' || Text.isAlphabetic c) &&
      rest.all fun c => ['_', '.', '[', ']'].contains c || Text.isAlphanumeric c

def readGroupName : Reader Opening := fun s =>
  let name := s.takeWhile (· ≠ '>')
  match s.drop name.length with
  | '>' :: rest =>
    if isGroupName name then some (.group .unchanged (some (String.ofList name)), rest) else none
  | _ => none

def readSwitches : Reader Opening := fun s => do
  let letters := s.takeWhile fun c => c ≠ ':' && c ≠ ')'
  let switches ← Switches.ofChars? letters
  match s.drop letters.length with
  | ':' :: rest => some (.group switches none, rest)
  | ')' :: rest => if letters = [] then none else some (.switches switches, rest)
  | _ => none

def readOpening (spaced : Bool) : Reader Opening := fun s =>
  match toPart spaced s with
  | '?' :: 'P' :: '<' :: rest => readGroupName rest
  | '?' :: '<' :: rest => readGroupName rest
  | '?' :: rest => readSwitches rest
  | rest => some (.group .unchanged none, rest)

def addName? (names : List String) : Option String → Option (List String)
  | none => some names
  | some name => if names.contains name then none else some (name :: names)

/-! ### Branches -/

def isRepetition (c : Char) : Bool := c = '?' || c = '*' || c = '+'

/-- Reads a part that is neither a group nor a repetition. An opening brace would start a count, and that
needs a closing brace. -/
def readAtom (spaced : Bool) : Reader Atom
  | [] => none
  | c :: rest =>
    if c = '[' then (readClass spaced rest).map fun (cls, rest) => (.charClass cls, rest)
    else if c = '\\' then readEscape spaced rest
    else if c = '.' then some (.any, rest)
    else if c = '^' || c = '$' then some (.anchor, rest)
    else if c = '\x7b' then none
    else some (.char c false, rest)

def repeatLast? : List Pattern → Option (List Pattern)
  | [] => none
  | .switches _ :: _ => none
  | p :: parts => some (.repeated p :: parts)

def joinBranches (branches parts : List Pattern) : Pattern :=
  ofBranches (ofParts parts.reverse :: branches).reverse

/-- Reads branches up to the closing parenthesis or the end of the text, with the names of all groups so far.
`branches` have been read, and the `parts` of the last branch, each last first; `fuel` bounds the number of
steps. -/
def readBranches : (fuel : Nat) → (spaced : Bool) → (names : List String) →
    (branches parts : List Pattern) → Reader (Pattern × List String)
  | 0, _, _, _, _, _ => none
  | fuel + 1, spaced, names, branches, parts, s =>
    match toPart spaced s with
    | [] => some ((joinBranches branches parts, names), [])
    | c :: rest =>
      if c = ')' then some ((joinBranches branches parts, names), c :: rest)
      else if c = '|' then readBranches fuel spaced names (ofParts parts.reverse :: branches) [] rest
      else if isRepetition c then do
        let parts ← repeatLast? parts
        readBranches fuel spaced names branches parts (if rest.head? = some '?' then rest.drop 1 else rest)
      else if c = '(' then do
        let (opening, rest) ← readOpening spaced rest
        match opening with
        | .switches s => readBranches fuel (s.state .spaced spaced) names branches (.switches s :: parts) rest
        | .group s name => do
          let names ← addName? names name
          let ((p, names), rest) ← readBranches fuel (s.state .spaced spaced) names [] [] rest
          match rest with
          | ')' :: rest => readBranches fuel spaced names branches (.group s p :: parts) rest
          | _ => none
      else do
        let (a, rest) ← readAtom spaced (c :: rest)
        readBranches fuel spaced names branches (.atom a :: parts) rest

end Pattern

def Pattern.read? (text : String) : Option Pattern :=
  let s := text.toList
  match Pattern.readBranches (s.length + 1) false [] [] [] s with
  | some ((p, _), []) => some p
  | _ => none

end PortfolioShell
