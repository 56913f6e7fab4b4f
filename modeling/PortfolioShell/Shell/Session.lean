import PortfolioShell.Shell.CommandLine
import PortfolioShell.Shell.Suggestion
import PortfolioShell.Shell.Turn
import PortfolioShell.Shell.Verb

/-! # Sessions

A visitor's session in the shell: where they are, what they have entered and what they were shown. An
entered line is echoed and carried out. What it does to the world outside is only requested; a line that
goes wrong shows a diagnostic and leaves the location as it was. -/

namespace PortfolioShell

namespace Session

def start (tree : ContentTree) (config : Config) : Session := ⟨tree, config, .root, .empty, .empty⟩

def prompt (s : Session) : String := s.location.toText

/-! ### Commands

A command gives what it shows. -/

def list (args : String) : Work (List Payload) := do
  let s ← Work.session
  let target := s.location.resolve args
  match s.tree.listing target with
  | .entries entries => return [.listing target.toText entries false]
  | .notADirectory => return [.text ("ls: " ++ args ++ ": not a directory")]
  | .notFound => throw (.noSuchDirectory "ls" args)

/-- Where `cd` leads; without an argument it leads to the root. -/
def destination (s : Session) (args : String) : Location :=
  if args = "" then .root else s.location.resolve args

def followIntoSection : Work Unit := do
  let s ← Work.session
  match s.location.segments with
  | [name] => Work.request (.switchPanel name s.config.navigationDelay.toNat)
  | _ => return ()

def changeDirectory (args : String) : Work (List Payload) := do
  let s ← Work.session
  let target := s.destination args
  unless target.isRoot || s.tree.isDirectory target do
    throw (.noSuchDirectory "cd" args)
  Work.moveTo target
  followIntoSection
  return [.text ("Changed directory to " ++ (← Work.session).prompt)]

/-- `cat` shows a file, and so does `open` when the file has no link. -/
def readFile (verb : Verb) (args : String) : Work (List Payload) := do
  if args = "" then
    throw (.missingFileArgument verb.name)
  let s ← Work.session
  match s.tree.lookup (s.location.resolve args) with
  | some (.file label content link) =>
    match verb, link with
    | .openLink, some uri =>
      Work.request (.openExternal uri)
      return [.text ("Opening " ++ uri ++ " ...")]
    | _, _ => return [.content label.name content]
  | _ => throw (.noSuchFile verb.name args)

def showHistory (args : String) : Work (List Payload) := do
  let s ← Work.session
  return [.lines (if args = "" then s.history.summary else s.history.search args)]

/-- A line that starts with the name of a section leads there at once and shows an overview. -/
def openSection (word line : String) : Work (List Payload) := do
  let s ← Work.session
  match s.tree.findSection? word with
  | none => throw (.commandNotFound line)
  | some name =>
    let target := Location.root.join name
    match s.tree.listing target with
    | .entries entries =>
      Work.moveTo target
      Work.request (.switchPanel name 0)
      return ((s.tree.description? target).map Payload.text).toList ++
        [.listing (← Work.session).prompt entries true]
    | _ => throw (.commandNotFound line)

def carryOut (command : CommandLine) (line : String) : Work (List Payload) := do
  match Verb.ofWord? command.word with
  | some .help => return [.lines (Verb.menu (← Work.session).tree.sections)]
  | some .clear =>
    Work.clearLog
    Work.request .clearPanel
    return []
  | some .pwd => return [.text (← Work.session).prompt]
  | some .ls => list command.args
  | some .cd => changeDirectory command.args
  | some .cat => readFile .cat command.args
  | some .openLink => readFile .openLink command.args
  | some .history => showHistory command.args
  | none => openSection command.word line

/-! ### Entering lines -/

def echo (s : Session) (input : String) : Session :=
  { s with log := s.log.push (.echo s.prompt input) }

/-- What is shown of a command: its own output, or the diagnostic of its error. -/
def shownOf : Except ShellError (List Payload) → List Payload
  | .ok payloads => payloads
  | .error err => [.diagnostic err.kind err.message]

def enter (s : Session) (command : CommandLine) (line : String) : List HostRequest × Session :=
  let (result, turn) := (carryOut command line).run { session := { s with history := s.history.add line } }
  (turn.requests, { turn.session with log := turn.session.log.pushAll (shownOf result) })

/-- Submits a typed line. Blanks around it do not count; a blank line is only echoed. -/
def submit (s : Session) (input : String) : Outcome × Session :=
  let line := Text.trimmed input
  let (requests, after) := match CommandLine.parse? line with
    | none => ([], s.echo input)
    | some command => (s.echo input).enter command line
  (⟨after.log.since s.log.lastId, requests⟩, after)

/-! ### While a line is typed -/

def recallPrevious (s : Session) : Option String × Session :=
  let (line, history) := s.history.previous
  (line, { s with history })

def recallNext (s : Session) : Option String × Session :=
  let (line, history) := s.history.next
  (line, { s with history })

def suggest (s : Session) (typed : String) : List String :=
  Suggestion.suggest s.tree s.location s.config.maxSuggestions.toNat typed

def quickCommands (s : Session) : List String := s.config.quickCommandsFor s.location.sectionName?

end Session

end PortfolioShell
