import PortfolioShell.Logging.Filter
import PortfolioShell.Settings.Loading
import PortfolioShell.Text.Quoted

/-! # Keeping a log

A log is a file and the filter that decides which events are written to it. -/

namespace PortfolioShell.Logging

structure Log where
  file : String
  filter : Filter
  deriving DecidableEq, Repr

/-- The filter for a log: the one that overrides the settings, if it reads, or else that of the settings. -/
def chooseFilter (override : Option String) (c : LoggingConfig) : Except ConfigError Filter :=
  match override.map Filter.read with
  | some (.ok filter) => .ok filter
  | _ => (Filter.read c.level).mapError fun err =>
    .logging ("invalid log level '" ++ c.level ++ "': " ++ err.message)

variable {m : Type → Type} [Monad m]

def openLog (files : FileAccess m) (override : Option String) (temporary : String) (c : LoggingConfig) :
    m (Except ConfigError (Option Log)) := do
  if !c.enabled then return .ok none
  match chooseFilter override c with
  | .error err => return .error err
  | .ok filter =>
    let file := c.logFile temporary
    let made ← match (Path.ofText file).parent? with
      | none => pure (.ok ())
      | some parent => files.makeDirectories parent.toText
    match made with
    | .error err => return .error (.logging ("failed to create log directory: " ++ err.message))
    | .ok () =>
      match ← files.append file .empty with
      | .error err =>
        return .error (.logging ("failed to open log file " ++ Text.quoted file ++ ": " ++ err.message))
      | .ok () => return .ok (some ⟨file, filter⟩)

def Log.write (files : FileAccess m) (log : Log) (events : List Event) : m (Except FileError Unit) :=
  files.append log.file
    (String.join ((events.filter log.filter.allows).map fun e => e.line ++ "\n")).toUTF8

end PortfolioShell.Logging
