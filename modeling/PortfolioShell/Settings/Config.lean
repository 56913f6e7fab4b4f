import PortfolioShell.Json.Value

/-! # Settings

What a visitor sees and how the program behaves can be set in a file. Every setting has a default. -/

namespace PortfolioShell

/-- Command lists for sections, one for each name, in order of the names. -/
structure QuickCommands where
  entries : List (String × List String)
  ordered : entries.Pairwise (·.1 < ·.1)

namespace QuickCommands

def empty : QuickCommands := ⟨[], .nil⟩

/-- The commands of a section; the empty name stands for the root. -/
def lookup? (q : QuickCommands) (name : String) : Option (List String) := q.entries.lookup name

def set (q : QuickCommands) (name : String) (commands : List String) : QuickCommands :=
  ⟨Json.putMember name commands q.entries, Json.ordered_putMember q.ordered⟩

def builtIn : QuickCommands :=
  ⟨[("", ["help", "ls", "projects", "skills", "contact"]),
    ("contact", ["ls", "open email", "open github", "cd ~"]),
    ("projects", ["ls", "cat epicwars-cvc", "open epicwars-cvc", "cd ~"]),
    ("skills", ["ls", "cat languages", "cat tools", "cd ~"])], by decide⟩

def fallback : List String := ["ls", "cd ~", "help"]

end QuickCommands

structure LoggingConfig where
  enabled : Bool := true
  level : String := "info"
  file : Option String := none
  deriving DecidableEq, Repr

def defaultLogFile (temporary : String) : String :=
  if temporary = "" || temporary.toList.getLast? = some '/' then temporary ++ "folio.log"
  else temporary ++ "/folio.log"

def LoggingConfig.logFile (c : LoggingConfig) (temporary : String) : String :=
  c.file.getD (defaultLogFile temporary)

structure Config where
  promptSymbol : String := "$"
  maxSuggestions : UInt64 := 6
  /-- How long the panel waits before it follows the visitor into a section, in milliseconds. -/
  navigationDelay : UInt64 := 300
  quickCommands : QuickCommands := .builtIn
  contentPath : Option String := none
  logging : LoggingConfig := {}

namespace Config

def default : Config := {}

def quickCommandsFor (c : Config) (name : Option String) : List String :=
  (c.quickCommands.lookup? (name.getD "")).getD QuickCommands.fallback

end Config

end PortfolioShell
