import PortfolioShell.Text.Lowercase
import PortfolioShell.Tree.ContentTree
import PortfolioShell.Tree.Location

/-! # Browsing a content tree

What there is at a location: the node itself, the listing of a directory, and the sections, which are the
directories under the root. -/

namespace PortfolioShell

inductive EntryKind where
  | directory
  | file
  deriving DecidableEq, Repr

structure Entry where
  name : String
  kind : EntryKind
  description : Option String
  preview : Option String
  deriving DecidableEq, Repr

namespace Entry

def ofNode (n : Node) : Entry where
  name := n.name
  kind := if n.isDirectory then .directory else .file
  description := n.label.description
  preview := n.label.preview

/-- The name with a sign for its kind before it, and a slash after that of a directory. -/
def displayName (e : Entry) : String :=
  match e.kind with
  | .directory => "📁 " ++ e.name ++ "/"
  | .file => "📄 " ++ e.name

def toJson (e : Entry) : Json.Value :=
  .object [("name", .string e.name),
    ("kind", .string (match e.kind with | .directory => "directory" | .file => "file")),
    ("description", .optional e.description), ("preview", .optional e.preview)]

end Entry

inductive Listing where
  | entries (entries : List Entry)
  | notADirectory
  | notFound
  deriving DecidableEq, Repr

def Node.descend? : Node → List String → Option Node
  | n, [] => some n
  | n, name :: rest => (n.child? name).bind (·.descend? rest)

/-- The name at which a walk meets a file and cannot go on. -/
def Node.blockedAt? : Node → List String → Option String
  | _, [] => none
  | n, name :: rest => if n.isFile then some name else (n.child? name).bind (·.blockedAt? rest)

namespace ContentTree

def lookup (tree : ContentTree) (l : Location) : Option Node := tree.root.descend? l.segments

def isDirectory (tree : ContentTree) (l : Location) : Bool := (tree.lookup l).any Node.isDirectory

def isFile (tree : ContentTree) (l : Location) : Bool := (tree.lookup l).any Node.isFile

def listing (tree : ContentTree) (l : Location) : Listing :=
  match tree.lookup l with
  | none => .notFound
  | some n => if n.isDirectory then .entries (n.children.map Entry.ofNode) else .notADirectory

def sections (tree : ContentTree) : List String :=
  (tree.root.children.filter Node.isDirectory).map Node.name

/-- The section of this name, or else the first one whose name differs only in the case of ASCII
letters. -/
def findSection? (tree : ContentTree) (word : String) : Option String :=
  (tree.sections.find? (· = word)).or (tree.sections.find? (Text.equalIgnoringAsciiCase · word))

def description? (tree : ContentTree) (l : Location) : Option String :=
  (tree.lookup l).bind (·.label.description)

end ContentTree

end PortfolioShell
