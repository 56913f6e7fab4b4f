import PortfolioShell.Text.Blank
import PortfolioShell.Tree.Node

/-! # Content trees

A tree that can be walked: its root is a directory, and in every directory the names are plain words, each
used once. The check reports the first flaw that a walk in depth-first order meets. -/

namespace PortfolioShell

inductive TreeError where
  | rootNotDirectory (name : String)
  | duplicateName (parent name : String)
  | invalidName (parent name : String)
  deriving DecidableEq, Repr

def TreeError.message : TreeError → String
  | .rootNotDirectory name => "root node must be a directory, found file '" ++ name ++ "'"
  | .duplicateName parent name => "duplicate entry '" ++ name ++ "' under '" ++ parent ++ "'"
  | .invalidName parent name => "invalid entry name '" ++ name ++ "' under '" ++ parent ++ "'"

/-- The names that a path expression does not take as the name of a place. -/
def reservedNames : List String := [".", "..", "~"]

def isEntryName (name : String) : Bool :=
  name ≠ "" && !name.toList.contains '/' && !name.toList.any Text.isBlank && !reservedNames.contains name

/-- The path of a child, made from that of its parent. Only the path of the root has no slash before it. -/
def childPath (parent name : String) : String :=
  if parent = "~" then "/" ++ name else parent ++ "/" ++ name

mutual

def Node.flaw? (path : String) : Node → Option TreeError
  | .directory _ children => firstFlaw? path [] children
  | .file .. => none

/-- The first flaw in children at the path `parent`, whose earlier siblings have the names in `seen`. -/
def firstFlaw? (parent : String) (seen : List String) : List Node → Option TreeError
  | [] => none
  | child :: rest =>
    if !isEntryName child.name then some (.invalidName parent child.name)
    else if seen.contains child.name then some (.duplicateName parent child.name)
    else match child.flaw? (childPath parent child.name) with
      | some flaw => some flaw
      | none => firstFlaw? parent (child.name :: seen) rest

end

def Node.rootFlaw? (n : Node) : Option TreeError :=
  if n.isDirectory then n.flaw? "~" else some (.rootNotDirectory n.name)

/-- A root in which the check finds no flaw. -/
structure ContentTree where
  root : Node
  sound : root.rootFlaw? = none

def ContentTree.ofRoot (root : Node) : Except TreeError ContentTree :=
  match h : root.rootFlaw? with
  | some flaw => .error flaw
  | none => .ok ⟨root, h⟩

theorem ContentTree.ofRoot_eq_ok_iff {root : Node} {tree : ContentTree} :
    ContentTree.ofRoot root = .ok tree ↔ tree.root = root := by
  rw [ContentTree.ofRoot]
  constructor
  · intro made
    split at made
    · cases made
    · cases made
      rfl
  · rintro rfl
    split
    · next flaw found => rw [tree.sound] at found; cases found
    · rfl

theorem ContentTree.ofRoot_eq_error_iff {root : Node} {err : TreeError} :
    ContentTree.ofRoot root = .error err ↔ root.rootFlaw? = some err := by
  rw [ContentTree.ofRoot]
  split
  · next flaw found => rw [found, Except.error.injEq, Option.some.injEq]
  · next found => simp [found]

end PortfolioShell
