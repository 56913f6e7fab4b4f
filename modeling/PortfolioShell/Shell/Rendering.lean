import PortfolioShell.Json.Printer
import PortfolioShell.Shell.OutputLog
import PortfolioShell.Text.Columns
import PortfolioShell.Text.Style

/-! # Rendering

The lines of a payload on a terminal of some width. Rich content is shown as indented JSON. -/

namespace PortfolioShell

def Entry.cells (enriched : Bool) (e : Entry) : List String :=
  [e.displayName, e.description.getD ""] ++ if enriched then [e.preview.getD ""] else []

def renderListing (entries : List Entry) (enriched : Bool) (width : Nat) : List String :=
  if entries = [] then [Text.styled .dim "(empty)"]
  else (Text.table (entries.map (Entry.cells enriched))).map (Text.truncate width true)

def renderContent (name : String) (shown : Content) (width : Nat) : List String :=
  Text.styled .bold name ::
    match shown with
    | .text s => Text.wrap width s
    | .rich v => Text.lines v.pretty

def Payload.render (p : Payload) (width : Nat) (symbol : String) : List String :=
  match p with
  | .echo prompt input => [Text.styled .cyan prompt ++ " " ++ symbol ++ " " ++ input]
  | .text s => Text.wrap width s
  | .lines ls => ls
  | .listing _ entries enriched => renderListing entries enriched width
  | .content name shown => renderContent name shown width
  | .diagnostic _ message => [Text.styled .red message]

end PortfolioShell
