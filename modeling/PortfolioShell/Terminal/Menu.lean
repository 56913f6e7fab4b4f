import PortfolioShell.Terminal.Key

/-! # Menu

A menu is not a part of the shell: it takes in keys by itself, until it answers. What it answers, and to which
keys, is up to the menu; what the answer means for the options that it was given is not. -/

namespace PortfolioShell.Terminal

inductive Answer where
  | chosen (position : Nat)
  | cancelled
  | failed (message : String)
  deriving DecidableEq, Repr

/-- A menu that is open, with the keys that it has taken in. -/
structure Menu where
  options : List String
  keys : List Key
  deriving DecidableEq, Repr

namespace Menu

def ofOptions (options : List String) : Menu := ⟨options, []⟩

def takeIn (menu : Menu) (key : Key) : Menu := { menu with keys := menu.keys ++ [key] }

def choice? (menu : Menu) : Answer → Option String
  | .chosen position => menu.options[position]?
  | .cancelled | .failed _ => none

/-! ### A menu of arrow keys

For a terminal that brings no menu of its own: the arrow keys move a mark through the options, from either end to
the other, and other characters than Enter, Escape and an interruption count for nothing. -/

def moveMark (count marked : Nat) (key : Key) : Nat :=
  match key.code with
  | .up => (marked + (count - 1)) % count
  | .down => (marked + 1) % count
  | _ => marked

def marked (menu : Menu) : Nat := menu.keys.foldl (moveMark menu.options.length) 0

def noOptions : String := "The prompt configuration is invalid: Available options can not be empty"

def answer? (menu : Menu) : Option Answer :=
  if menu.options = [] then some (.failed noOptions)
  else match menu.keys.getLast? with
    | none => none
    | some key =>
      if key.isInterrupt then some .cancelled
      else match key.code with
        | .enter => some (.chosen menu.marked)
        | .escape => some .cancelled
        | _ => none

end Menu

end PortfolioShell.Terminal
