/-! # Patterns

A pattern says which texts the value of a field may be. It is kept as a tree of atoms: characters, classes,
anchors and boundaries of words. No value is ever matched, because fields belong to spans and no span is
ever open; what counts is only whether a pattern can be matched at all. The tree holds what decides that:
which atoms there are, how deep they nest, and which switches are in force at each of them. -/

namespace PortfolioShell

namespace Pattern

/-! ### Switches -/

inductive Flag where
  | ignoreCase
  | multipleLines
  | dotMatchesAll
  | lazy
  | unicode
  | carriageReturns
  | spaced
  deriving DecidableEq, Repr

def Flag.ofChar? : Char → Option Flag
  | 'i' => some .ignoreCase
  | 'm' => some .multipleLines
  | 's' => some .dotMatchesAll
  | 'U' => some .lazy
  | 'u' => some .unicode
  | 'R' => some .carriageReturns
  | 'x' => some .spaced
  | _ => none

structure Switches where
  on : List Flag
  off : List Flag
  deriving DecidableEq, Repr

namespace Switches

def unchanged : Switches := ⟨[], []⟩

def state (s : Switches) (f : Flag) (before : Bool) : Bool :=
  s.on.contains f || before && !s.off.contains f

def repeats : List Char → Bool
  | [] => false
  | c :: rest => rest.contains c || repeats rest

/-- The switches that letters write: those to turn on, then a minus and those to turn off. No letter stands
there twice, and some letter follows the minus. -/
def ofChars? (letters : List Char) : Option Switches :=
  if repeats letters || letters.getLast? = some '-' then none
  else do
    let on ← (letters.takeWhile (· ≠ '-')).mapM Flag.ofChar?
    let off ← ((letters.dropWhile (· ≠ '-')).drop 1).mapM Flag.ofChar?
    some ⟨on, off⟩

end Switches

/-! ### Classes and atoms -/

inductive CharClass where
  | empty
  | char (c : Char)
  | range (first last : Char)
  | named (negated : Bool)
  | shorthand (negated : Bool)
  | bracket (negated : Bool) (inside : CharClass)
  | union (parts : List CharClass)
  | operation (left right : CharClass)

def CharClass.ofParts : List CharClass → CharClass
  | [] => .empty
  | [part] => part
  | parts => .union parts

inductive Atom where
  | char (c : Char) (byte : Bool)
  | any
  | anchor
  | boundary
  | charClass (cls : CharClass)

end Pattern

/-! ### The tree -/

inductive Pattern where
  | empty
  | atom (a : Pattern.Atom)
  | switches (s : Pattern.Switches)
  | repeated (p : Pattern)
  | group (s : Pattern.Switches) (p : Pattern)
  | sequence (ps : List Pattern)
  | choice (ps : List Pattern)

namespace Pattern

def ofParts : List Pattern → Pattern
  | [] => .empty
  | [p] => p
  | ps => .sequence ps

def ofBranches : List Pattern → Pattern
  | [p] => p
  | ps => .choice ps

/-! ### Depth -/

mutual

def CharClass.depth : CharClass → Nat
  | .bracket _ inside => inside.depth + 1
  | .union parts => CharClass.depthOfAll parts + 1
  | .operation left right => max left.depth right.depth + 1
  | .empty | .char _ | .range .. | .named _ | .shorthand _ => 0

def CharClass.depthOfAll : List CharClass → Nat
  | [] => 0
  | part :: parts => max part.depth (CharClass.depthOfAll parts)

end

def Atom.depth : Atom → Nat
  | .charClass cls => cls.depth
  | _ => 0

mutual

def depth : Pattern → Nat
  | .empty | .switches _ => 0
  | .atom a => a.depth
  | .repeated p => p.depth + 1
  | .group _ p => p.depth + 1
  | .sequence ps => depthOfAll ps + 1
  | .choice ps => depthOfAll ps + 1

def depthOfAll : List Pattern → Nat
  | [] => 0
  | p :: ps => max p.depth (depthOfAll ps)

end

end Pattern

end PortfolioShell
