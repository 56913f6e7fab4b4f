import PortfolioShell.Shell.Verb
import PortfolioShell.Tree.Browse

/-! # Suggestions

What a line that is being typed may be completed to. After `cd` the directories at the current location are
offered, after `cat` and `open` the files; a line that is still its first word is completed to a verb, a
section or a name at the current location. -/

namespace PortfolioShell.Suggestion

def beginsWith (start text : String) : Bool := start.toList.isPrefixOf text.toList

def firstOccurrences : List String → List String
  | [] => []
  | name :: rest => name :: (firstOccurrences rest).filter (· ≠ name)

def splitWord? (line : List Char) : Option (List Char × List Char) :=
  match Text.afterWord line with
  | [] => none
  | after => some (Text.firstWord line, Text.dropStart after)

def childrenAt (tree : ContentTree) (l : Location) : List Node :=
  ((tree.lookup l).map Node.children).getD []

def withChildren (tree : ContentTree) (l : Location) (word rest : String) (wanted : Node → Bool) :
    List String :=
  ((childrenAt tree l).filter fun n => wanted n && beginsWith rest n.name).map (word ++ " " ++ ·.name)

/-- The names that begin like the line, letter case aside: verbs, then sections, then names at the
location. -/
def names (tree : ContentTree) (l : Location) (line : List Char) : List String :=
  let start := Text.lowerChars (Text.dropEnds line)
  firstOccurrences <|
    (Verb.spellings.map (·.1) ++ tree.sections ++ (childrenAt tree l).map Node.name).filter fun name =>
      start.isPrefixOf (Text.lowerChars name.toList)

def all (tree : ContentTree) (l : Location) (typed : String) : List String :=
  let line := Text.dropStart typed.toList
  if line = [] then []
  else match splitWord? line with
    | none => names tree l line
    | some (word, rest) =>
      let rest := String.ofList rest
      match Text.lowercase (String.ofList word) with
      | "cd" =>
        withChildren tree l "cd" rest Node.isDirectory ++
          ([ "..", "~"].filter (beginsWith rest)).map ("cd " ++ ·)
      | "cat" => withChildren tree l "cat" rest Node.isFile
      | "open" => withChildren tree l "open" rest Node.isFile
      | _ => names tree l line

def suggest (tree : ContentTree) (l : Location) (most : Nat) (typed : String) : List String :=
  (all tree l typed).take most

end PortfolioShell.Suggestion
