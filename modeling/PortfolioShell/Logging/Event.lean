import PortfolioShell.Logging.Level

/-! # Log events

What is noted in the log: an event has a level, the part of the program that it comes from, a message and
some named fields. -/

namespace PortfolioShell.Logging

inductive Source where
  | tree
  | session
  | prompter
  | panel
  deriving DecidableEq, Repr

def Source.name : Source → String
  | tree => "folio::vfs::accessor"
  | session => "folio::cli::interpreter"
  | prompter => "folio::cli::prompter"
  | panel => "folio::cli::bridge"

structure Event where
  level : Level
  source : Source
  message : String
  fields : List (String × String)
  deriving DecidableEq, Repr

def Event.line (e : Event) : String :=
  e.level.name ++ " " ++ e.source.name ++ ": " ++ e.message ++
    String.join (e.fields.map fun (name, value) => " " ++ name ++ "=" ++ value)

end PortfolioShell.Logging
