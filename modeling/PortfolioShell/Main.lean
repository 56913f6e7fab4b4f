import PortfolioShell.Program

/-! # Command line

The shell on standard input and output. Every line that comes in is typed key by key and submitted; the end
of the input leaves the shell. -/

open PortfolioShell Terminal

namespace PortfolioShell.CommandLineHost

def fileError : IO.Error → FileError
  | .noFileOrDirectory .. => .notFound
  | .alreadyExists .. => .alreadyExists
  | err => .other (toString err)

def attempt {α : Type} (operation : IO α) : IO (Except FileError α) := do
  match ← operation.toBaseIO with
  | .ok x => return .ok x
  | .error err => return .error (fileError err)

def files : FileAccess IO where
  read path := attempt (IO.FS.readBinFile path)
  write path contents := attempt (IO.FS.writeBinFile path contents)
  append path contents := attempt do
    let handle ← IO.FS.Handle.mk path .append
    handle.write contents
  makeDirectories path := attempt (IO.FS.createDirAll path)

def environment : IO Program.Environment := do
  return {
    configPath := ← IO.getEnv "FOLIO_CONFIG"
    logFilter := ← IO.getEnv "RUST_LOG"
    temporary := (← IO.getEnv "TMPDIR").getD "/tmp" }

def defaultWidth : Nat := 80

def present (log : Option Logging.Log) (p : Prompter) : IO Prompter := do
  let output ← IO.getStdout
  output.putStr p.screen
  output.flush
  Program.keepLog files log p.journal
  return { p with written := [], noted := [] }

/-- Takes in lines until the visitor leaves; `time` is when the last one came in. -/
partial def converse (log : Option Logging.Log) (time : Nat) (p : Prompter) : IO Prompter := do
  let p ← present log p
  if p.isDone then return p
  let line ← (← IO.getStdin).getLine
  let now ← IO.monoMsNow
  let keys := if line.isEmpty then [.interrupt]
    else Key.ofText (line.dropEndWhile (· == '\n')).copy ++ [.enter]
  converse log now (keys.foldl Prompter.press (p.elapse (now - time)).drain)

end PortfolioShell.CommandLineHost

open PortfolioShell.CommandLineHost in
def main : IO UInt32 := do
  let startup ← Program.startUp files (← environment)
  IO.eprint startup.errors
  match startup.ready with
  | none => return Program.failure.toUInt32
  | some ready =>
    let p ← converse ready.log (← IO.monoMsNow) (.start ready.session defaultWidth)
    let (status, lastWords) := Program.ending p
    IO.print lastWords
    return status.toUInt32
