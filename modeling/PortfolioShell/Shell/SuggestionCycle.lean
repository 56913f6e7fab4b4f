/-! # Suggestion cycle

Walking through a list of completions. Each time the same list is offered the next entry is taken, after
the last one the first again; another list starts at its first entry. -/

namespace PortfolioShell

structure SuggestionCycle where
  candidates : List String
  index : Option Nat
  deriving DecidableEq, Repr

namespace SuggestionCycle

def idle : SuggestionCycle := ⟨[], none⟩

def isActive (c : SuggestionCycle) : Bool := c.index.isSome

def accept (c : SuggestionCycle) (offered : List String) : Option String × SuggestionCycle :=
  match c.index with
  | some i =>
    if offered = c.candidates then
      let next := (i + 1) % offered.length
      (offered[next]?, { c with index := some next })
    else start offered
  | none => start offered
where
  start (offered : List String) : Option String × SuggestionCycle :=
    (offered.head?, ⟨offered, if offered = [] then none else some 0⟩)

end SuggestionCycle

end PortfolioShell
