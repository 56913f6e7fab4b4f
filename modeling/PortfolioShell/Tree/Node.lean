import PortfolioShell.Json.Value

/-! # Nodes of a content tree

A directory holds nodes, a file holds content: a text, or any other JSON value that is shown as it is. Both
have a name and may have a description and a preview, which listings show; a file may have a link. -/

namespace PortfolioShell

inductive Content where
  | text (text : String)
  | rich (value : Json.Value)
  deriving Inhabited

structure Label where
  name : String
  description : Option String
  preview : Option String
  deriving DecidableEq, Repr, Inhabited

inductive Node where
  | directory (label : Label) (children : List Node)
  | file (label : Label) (content : Content) (link : Option String)
  deriving Inhabited

namespace Node

def label : Node → Label
  | .directory label _ => label
  | .file label _ _ => label

def name (n : Node) : String := n.label.name

def isDirectory : Node → Bool
  | .directory .. => true
  | .file .. => false

def isFile (n : Node) : Bool := !n.isDirectory

def children : Node → List Node
  | .directory _ children => children
  | .file .. => []

def child? (n : Node) (name : String) : Option Node := n.children.find? (·.name = name)

def content? : Node → Option Content
  | .directory .. => none
  | .file _ content _ => some content

def link? : Node → Option String
  | .directory .. => none
  | .file _ _ link => link

/-! ### Building -/

def ofChildren (name : String) (children : List Node) : Node := .directory ⟨name, none, none⟩ children

def ofContent (name : String) (content : Content) : Node := .file ⟨name, none, none⟩ content none

def ofText (name text : String) : Node := ofContent name (.text text)

def mapLabel (f : Label → Label) : Node → Node
  | .directory label children => .directory (f label) children
  | .file label content link => .file (f label) content link

def describedAs (n : Node) (description : String) : Node :=
  n.mapLabel fun label => { label with description := some description }

def previewedAs (n : Node) (preview : String) : Node :=
  n.mapLabel fun label => { label with preview := some preview }

def linkedTo (n : Node) (link : String) : Node :=
  match n with
  | .directory label children => .directory label children
  | .file label content _ => .file label content (some link)

end Node

end PortfolioShell
