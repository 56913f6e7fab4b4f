import PortfolioShell.Json.Printer
import PortfolioShell.Json.Reader
import PortfolioShell.Tree.ContentTree

/-! # Content trees as JSON

A node is an object with a `name`, a `kind`, what its kind holds and the optional parts of its label. The
order of the members does not matter, and members that the kind does not know may hold anything. -/

namespace PortfolioShell

/-! ### Writing -/

def Content.toJson : Content → Json.Value
  | .text s => .string s
  | .rich v => v

def optionalMember (key : String) : Option String → List (String × Json.Value)
  | none => []
  | some s => [(key, .string s)]

def Label.members (label : Label) : List (String × Json.Value) :=
  optionalMember "preview" label.preview ++ optionalMember "description" label.description

mutual

def Node.toJson : Node → Json.Value
  | .directory label children =>
    .object ([("name", .string label.name), ("kind", .string "directory"),
      ("children", .array (Node.listToJson children))] ++ label.members)
  | .file label content link =>
    .object ([("name", .string label.name), ("kind", .string "file"), ("content", content.toJson)] ++
      optionalMember "external_link" link ++ label.members)

def Node.listToJson : List Node → List Json.Value
  | [] => []
  | n :: rest => n.toJson :: Node.listToJson rest

end

def ContentTree.toText (tree : ContentTree) : String := tree.root.toJson.compact

/-! ### From members to a node -/

/-- What the members of an object hold under a key, once or not at all. -/
def once (members : List (String × Json.Value)) (key : String) : Except Json.Fault (Option Json.Value) :=
  match members.filter (·.1 = key) with
  | [] => .ok none
  | [(_, v)] => .ok (some v)
  | _ => .error .unfit

def optionalText (members : List (String × Json.Value)) (key : String) :
    Except Json.Fault (Option String) := do
  match ← once members key with
  | none | some .null => .ok none
  | some (.string s) => .ok (some s)
  | some _ => .error .unfit

def labelOf (members : List (String × Json.Value)) : Except Json.Fault Label := do
  let name ← match ← once members "name" with
    | some (.string s) => .ok s
    | _ => .error .unfit
  let preview ← optionalText members "preview"
  let description ← optionalText members "description"
  .ok ⟨name, description, preview⟩

def kindIsDirectory (members : List (String × Json.Value)) : Except Json.Fault Bool := do
  match ← once members "kind" with
  | some (.string "directory") => .ok true
  | some (.string "file") => .ok false
  | some (.number (.whole n)) =>
    if n.val = 0 then .ok true else if n.val = 1 then .ok false else .error .unfit
  | _ => .error .unfit

/-- A text is content as it stands; any other value is rich content in canonical form. -/
def Content.ofJson : Json.Value → Content
  | .string s => .text s
  | v => .rich v.canonical

def fileOf (label : Label) (members : List (String × Json.Value)) : Except Json.Fault Node := do
  let content ← match ← once members "content" with
    | some v => .ok (Content.ofJson v)
    | none => .error .unfit
  let link ← optionalText members "external_link"
  .ok (.file label content link)

def nodeOf (childrenOf : Json.Value → Except Json.Fault (List Node))
    (members : List (String × Json.Value)) : Except Json.Fault Node := do
  let label ← labelOf members
  if ← kindIsDirectory members then
    match ← once members "children" with
    | none => .ok (.directory label [])
    | some v => do .ok (.directory label (← childrenOf v))
  else fileOf label members

mutual

def Node.ofJson : (fuel : Nat) → Json.Value → Except Json.Fault Node
  | 0, _ => .error .unfit
  | fuel + 1, .object members => nodeOf (Node.listOfJson fuel) members
  | _, _ => .error .unfit

def Node.listOfJson (fuel : Nat) : Json.Value → Except Json.Fault (List Node)
  | .array items => items.mapM (Node.ofJson fuel)
  | _ => .error .unfit

end

/-! ### Reading -/

/-- The members that are judged as soon as they are read; all others wait for the end of the object. -/
def isEagerKey (key : String) : Bool := ["name", "preview", "description"].contains key

/-- Reads a member of the root: an eager one only once and only with a text, any other as it stands. -/
def readRootMember (members : List (String × Json.Value)) (key : String) :
    Json.Reader (List (String × Json.Value)) := fun s =>
  if isEagerKey key then
    if (members.lookup key).isSome then .error .unfit
    else
      let reader : Json.Reader (Option String) :=
        if key = "name" then fun s => (Json.readText s).map fun (text, s) => (some text, s)
        else Json.readOptional Json.readText
      (Json.afterColon reader s).map fun (text, s) => (members ++ [(key, .optional text)], s)
  else
    (Json.afterColon (Json.readValue (Json.depthLimit - 1)) s).map fun (v, s) => (members ++ [(key, v)], s)

def readRoot : Json.Reader Node := fun s => do
  let (members, rest) ← Json.readObjectOf readRootMember [] s
  let node ← nodeOf (Node.listOfJson Json.depthLimit) members
  .ok (node, rest)

inductive TreeTextError where
  | fault (fault : Json.Fault)
  | flaw (flaw : TreeError)
  deriving DecidableEq, Repr

def ContentTree.read (text : String) : Except TreeTextError ContentTree := do
  let root ← (Json.readDocument readRoot text).mapError .fault
  (ContentTree.ofRoot root).mapError .flaw

end PortfolioShell
