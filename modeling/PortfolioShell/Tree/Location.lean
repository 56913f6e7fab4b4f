import PortfolioShell.Json.Reader
import PortfolioShell.Text.Lines

/-! # Locations

A place in a content tree, as the names on the way to it from the root. Whether anything is there is not
asked here: a path expression is resolved by its segments alone. -/

namespace PortfolioShell

structure Location where
  segments : List String
  deriving DecidableEq, Repr, Inhabited

namespace Location

def root : Location := ⟨[]⟩

def isRoot (l : Location) : Bool := l.segments.isEmpty

def depth (l : Location) : Nat := l.segments.length

def sectionName? (l : Location) : Option String := l.segments.head?

def join (l : Location) (name : String) : Location := ⟨l.segments ++ [name]⟩

def parent (l : Location) : Location := ⟨l.segments.dropLast⟩

/-- `~` for the root, and `/a/b` for a place below it. -/
def toText (l : Location) : String :=
  if l.isRoot then "~" else String.join (l.segments.map ("/" ++ ·))

/-! ### Path expressions -/

/-- Where one segment of a path expression leads: `..` up, `~` to the root, `.` and the empty segment
nowhere, any other to the place of that name. -/
def step (l : Location) (segment : String) : Location :=
  if segment = "" || segment = "." then l
  else if segment = ".." then l.parent
  else if segment = "~" then root
  else l.join segment

def resolve (l : Location) (expression : String) : Location :=
  (Text.split '/' expression).foldl step l

/-! ### As JSON -/

def toJson (l : Location) : Json.Value := .strings l.segments

def readJson : Json.Reader Location := fun s =>
  (Json.readArrayOf Json.readText s).map fun (names, s) => (⟨names⟩, s)

def ofJson (text : String) : Except Json.Fault Location := Json.readDocument readJson text

end Location

end PortfolioShell
