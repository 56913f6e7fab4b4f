import PortfolioShell.Logging.Setup
import PortfolioShell.Terminal.Prompter

/-! # The program

The shell as it is started on a terminal: settings, log and content are loaded, then the visitor's keys are
taken in. A log that cannot be kept is only a warning; settings or content that cannot be loaded end the
program. -/

namespace PortfolioShell.Program

open Terminal Logging

structure Environment where
  configPath : Option String
  logFilter : Option String
  temporary : String

structure Ready where
  session : Session
  log : Option Log

/-- What has been written to the error stream, and what is ready, unless the program ends at once. -/
structure Startup where
  errors : String
  ready : Option Ready

structure Run where
  status : UInt8
  screen : String
  errors : String
  deriving DecidableEq, Repr

def failure : UInt8 := 1

/-- The status after a fault of the program itself. -/
def faultStatus : UInt8 := 101

def farewell : String := "Goodbye!\n"

def noTerminal : String := "Error running CLI: " ++ FileError.numbered "No such device or address" 6 ++ "\n"

/-- The status and the last words of a program that takes in no more keys. -/
def ending (p : Prompter) : UInt8 × String := if p.fault.isSome then (faultStatus, "") else (0, farewell)

variable {m : Type → Type} [Monad m]

/-- The settings; a path of blanks counts as none. -/
def loadConfig (files : FileAccess m) (env : Environment) : m (Except ConfigError Config) :=
  match env.configPath with
  | none => return .ok .default
  | some path => if Text.trimmed path = "" then return .ok .default else Config.load files path

def startUp (files : FileAccess m) (env : Environment) : m Startup := do
  match ← loadConfig files env with
  | .error err => return ⟨"ERROR: " ++ err.message ++ "\n", none⟩
  | .ok config =>
    let (warning, log) := match ← openLog files env.logFilter env.temporary config.logging with
      | .ok log => ("", log)
      | .error err => ("WARNING: " ++ err.message ++ "\n", none)
    match ← config.loadTree files with
    | .error err => return ⟨warning ++ "ERROR: failed to load content: " ++ err.message ++ "\n", none⟩
    | .ok tree => return ⟨warning, some ⟨.start tree config, log⟩⟩

def keepLog (files : FileAccess m) (log : Option Log) (events : List Event) : m Unit := do
  match log with
  | none => return ()
  | some log => do
    let _ ← log.write files events
    return ()

/-- Runs the program for a visitor who presses some keys and then leaves; without a width there is no
terminal. -/
def run (files : FileAccess m) (env : Environment) (width : Option Nat) (keys : List Key) : m Run := do
  let startup ← startUp files env
  match startup.ready, width with
  | none, _ => return ⟨failure, "", startup.errors⟩
  | some _, none => return ⟨failure, Prompter.welcome, startup.errors ++ noTerminal⟩
  | some ready, some width =>
    let p := (keys.foldl Prompter.press (.start ready.session width)).press .interrupt
    keepLog files ready.log p.journal
    let (status, lastWords) := ending p
    return ⟨status, p.screen ++ lastWords, startup.errors⟩

end PortfolioShell.Program
