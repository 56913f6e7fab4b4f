import PortfolioShell.Files.Access
import PortfolioShell.Settings.Codec
import PortfolioShell.Tree.Codec
import PortfolioShell.Tree.Sample

/-! # Settings files

Loading and saving settings, and loading the content that they point to. -/

namespace PortfolioShell

inductive ConfigError where
  | file (path : String) (error : FileError)
  | unreadable (fault : Json.Fault)
  | tree (flaw : TreeError)
  | logging (reason : String)
  deriving DecidableEq, Repr

namespace ConfigError

def message : ConfigError → String
  | file path error => "failed to read " ++ path ++ ": " ++ error.message
  | unreadable fault => "failed to parse JSON: " ++ fault.description
  | tree flaw => flaw.message
  | logging reason => "logging setup failed: " ++ reason

def ofTreeText : TreeTextError → ConfigError
  | .fault fault => .unreadable fault
  | .flaw flaw => .tree flaw

end ConfigError

namespace Config

variable {m : Type → Type} [Monad m]

def load (files : FileAccess m) (path : String) : m (Except ConfigError Config) := do
  match ← files.readText path with
  | .error err => return .error (.file path err)
  | .ok text => return (ofText text).mapError .unreadable

def save (files : FileAccess m) (c : Config) (path : String) : m (Except ConfigError Unit) := do
  return (← files.write path c.toText.toUTF8).mapError (.file path)

def loadTree (files : FileAccess m) (c : Config) : m (Except ConfigError ContentTree) := do
  match c.contentPath with
  | none => return .ok Sample.tree
  | some path =>
    match ← files.readText path with
    | .error err => return .error (.file path err)
    | .ok text => return (ContentTree.read text).mapError .ofTreeText

end Config

end PortfolioShell
