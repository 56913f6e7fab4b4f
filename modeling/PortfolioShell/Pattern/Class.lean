import PortfolioShell.Pattern.Basic
import PortfolioShell.Text.Blank
import PortfolioShell.Text.Hex

/-! # Reading classes of characters

Readers for escapes and for what stands between brackets. A reader takes the text that is left and gives what
it read with the text after it, or nothing where the text is no pattern. The text holds no closing brace, as
one ends the field whose value the pattern is, so whatever needs one is no pattern. -/

namespace PortfolioShell.Pattern

abbrev Reader (α : Type) := List Char → Option (α × List Char)

/-! ### Blanks and comments -/

def dropComments (inComment : Bool) : List Char → List Char
  | [] => []
  | c :: rest =>
    if inComment then dropComments (c ≠ '\n') rest
    else if Text.isBlank c then dropComments false rest
    else if c = '#' then dropComments true rest
    else c :: rest

def toPart (spaced : Bool) (s : List Char) : List Char := if spaced then dropComments false s else s

/-! ### Escapes -/

def readHex (spaced : Bool) : (count value : Nat) → Reader Nat
  | 0, value, s => some (value, s)
  | count + 1, value, s =>
    match toPart spaced s with
    | [] => none
    | c :: rest => (Text.hexValue? c).bind fun digit => readHex spaced count (value * 16 + digit) rest

def hexWidth? : Char → Option Nat
  | 'x' => some 2
  | 'u' => some 4
  | 'U' => some 8
  | _ => none

def isPunctuation (c : Char) : Bool := c.toNat < 128 && !c.isAlphanum && c ≠ '<' && c ≠ '>'

def escapedLetter? : Char → Option Atom
  | 'a' => some (.char '\x07' false)
  | 'f' => some (.char '\x0c' false)
  | 't' => some (.char '\t' false)
  | 'n' => some (.char '\n' false)
  | 'r' => some (.char '\r' false)
  | 'v' => some (.char '\x0b' false)
  | 'd' | 's' | 'w' => some (.charClass (.shorthand false))
  | 'D' | 'S' | 'W' => some (.charClass (.shorthand true))
  | 'A' | 'z' => some .anchor
  | 'b' | 'B' | '<' | '>' => some .boundary
  | _ => none

def readEscape (spaced : Bool) : Reader Atom
  | [] => none
  | c :: rest =>
    if isPunctuation c then some (.char c false, rest)
    else match hexWidth? c with
      | some width => do
        let (code, rest) ← readHex spaced width 0 rest
        if code.isValidChar then some (.char (Char.ofNat code) (width = 2), rest) else none
      | none => (escapedLetter? c).map (·, rest)

/-! ### Parts of a class -/

def classNames : List String :=
  ["alnum", "alpha", "ascii", "blank", "cntrl", "digit", "graph", "lower", "print", "punct", "space",
   "upper", "word", "xdigit"]

def readNamed : Reader CharClass
  | ':' :: rest =>
    let negated := rest.head? = some '^'
    let inside := if negated then rest.drop 1 else rest
    let name := inside.takeWhile (· ≠ ':')
    match inside.drop name.length with
    | ':' :: ']' :: rest =>
      if classNames.contains (String.ofList name) then some (.named negated, rest) else none
    | _ => none
  | _ => none

def readMember (spaced : Bool) : Reader Atom
  | [] => none
  | '\\' :: rest => readEscape spaced rest
  | c :: rest => some (.char c false, rest)

def Atom.asClass? : Atom → Option CharClass
  | .char c _ => some (.char c)
  | .charClass cls => some cls
  | _ => none

/-- Does a hyphen stand for itself before this text? It does at the end of a class and before another
hyphen. A number sign that starts a comment is passed over here, but not the comment itself. -/
def standsAlone (spaced : Bool) (s : List Char) : Bool :=
  let s := if spaced then s.dropWhile Text.isBlank else s
  let s := if spaced && s.head? = some '#' then (s.drop 1).dropWhile Text.isBlank else s
  s.head? = some ']' || s.head? = some '-'

def readPart (spaced : Bool) : Reader CharClass := fun s => do
  let (first, rest) ← readMember spaced s
  let single := first.asClass?.map (·, toPart spaced rest)
  match toPart spaced rest with
  | '-' :: more =>
    if standsAlone spaced more then single
    else do
      let (last, rest) ← readMember spaced (toPart spaced more)
      match first, last with
      | .char a _, .char b _ => if a.toNat ≤ b.toNat then some (.range a b, rest) else none
      | _, _ => none
  | _ => single

/-! ### Classes -/

def afterOperation? (sign : Char) (s : List Char) : Option (List Char) :=
  if ['&', '-', '~'].contains sign && s.head? = some sign then some (s.drop 1) else none

def readCaret (spaced : Bool) (s : List Char) : Bool × List Char :=
  match toPart spaced s with
  | '^' :: rest => (true, rest)
  | rest => (false, rest)

def joinOperation (left : Option CharClass) (parts : List CharClass) : CharClass :=
  let right := CharClass.ofParts parts.reverse
  (left.map (.operation · right)).getD right

/-- Reads the inside of a class and the bracket that closes it. At its start hyphens stand for themselves,
and so does a closing bracket that comes first. `parts` have been read since the last operation, the last one
first; `fuel` bounds the number of steps. -/
def readInside (spaced : Bool) : (fuel : Nat) → (start : Bool) → (left : Option CharClass) →
    (parts : List CharClass) → Reader CharClass
  | 0, _, _, _, _ => none
  | fuel + 1, start, left, parts, s =>
    match toPart spaced s with
    | [] => none
    | c :: rest =>
      if start && c = '-' then readInside spaced fuel true left (.char c :: parts) rest
      else if c = ']' then
        if start && parts.isEmpty then readInside spaced fuel false left [.char c] rest
        else some (joinOperation left parts, rest)
      else if c = '[' then
        match readNamed rest with
        | some (named, rest) => readInside spaced fuel false left (named :: parts) rest
        | none => do
          let (negated, inside) := readCaret spaced rest
          let (inner, rest) ← readInside spaced fuel true none [] inside
          readInside spaced fuel false left (.bracket negated inner :: parts) rest
      else match afterOperation? c rest with
        | some rest => readInside spaced fuel false (some (joinOperation left parts)) [] rest
        | none => do
          let (part, rest) ← readPart spaced (c :: rest)
          readInside spaced fuel false left (part :: parts) rest

def readClass (spaced : Bool) : Reader CharClass := fun s => do
  let (negated, inside) := readCaret spaced s
  let (inner, rest) ← readInside spaced (s.length + 1) true none [] inside
  some (.bracket negated inner, rest)

end PortfolioShell.Pattern
