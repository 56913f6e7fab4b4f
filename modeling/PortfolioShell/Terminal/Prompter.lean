import PortfolioShell.Panel.Timers
import PortfolioShell.Shell.Journal
import PortfolioShell.Shell.Rendering
import PortfolioShell.Shell.SuggestionCycle
import PortfolioShell.Terminal.InputLine
import PortfolioShell.Terminal.Menu

/-! # Prompter

A session on a terminal. Keys edit a line, walk through the history and the completions, or open a menu of
quick commands; Enter submits the line. What is written to the terminal is kept, piece after piece, and so
are the events for the log. A fault in an edit of the line or in drawing it would stop the program. -/

namespace PortfolioShell.Terminal

open Text Logging

structure Prompter where
  session : Session
  width : Nat
  panel : PanelTimers := .empty
  /-- The timers that have been set and were not finished when the last line was submitted. -/
  pending : List Nat := []
  line : InputLine := .empty
  cycle : SuggestionCycle := .idle
  /-- The line that completions are offered for: as it was before the first Tab. -/
  seed : Option String := none
  menu : Option Menu := none
  isOver : Bool := false
  /-- What the program has stopped at. -/
  fault : Option LineFault := none
  /-- What has been written, the newest piece first. -/
  written : List String := []
  noted : List Event := []

namespace Prompter

/-! ### Writing -/

def write (p : Prompter) (piece : String) : Prompter := { p with written := piece :: p.written }

def screen (p : Prompter) : String := String.join p.written.reverse

def note (p : Prompter) (e : Event) : Prompter := { p with noted := e :: p.noted }

def journal (p : Prompter) : List Event := p.noted.reverse

/-- The end of a line on a terminal that does not add a carriage return by itself. -/
def lineEnd : String := "\r\n"

def clearLine : String := "\r\x1b[K"

def clearScreen : String := "\x1b[2J\x1b[1;1H"

def welcome : String :=
  "\n" ++ styled .bold "Welcome to my portfolio terminal." ++ "\n" ++
    "Type 'help' to see what you can do, Tab to complete,\n" ++
    "↑/↓ for history and '/' on an empty line for quick commands.\n\n"

def promptLine (s : Session) (line : InputLine) : Except LineFault String := do
  let behind ← line.behindCursor
  return clearLine ++ styled .cyan s.prompt ++ " " ++ s.config.promptSymbol ++ " " ++ line.text ++
    if behind = 0 then "" else "\x1b[" ++ toString behind ++ "D"

def fail (p : Prompter) (fault : LineFault) : Prompter := { p with fault := some fault }

def draw (p : Prompter) (line : InputLine) : Prompter :=
  match promptLine p.session line with
  | .ok piece => p.write piece
  | .error fault => p.fail fault

def setLine (p : Prompter) (line : InputLine) : Prompter := { p with line }.draw line

def newLine (p : Prompter) : Prompter := p.setLine .empty

def start (session : Session) (width : Nat) : Prompter :=
  { session, width : Prompter }.write welcome |>.newLine

/-! ### The panel -/

def eventText : PanelEvent → String
  | .openExternal uri => "OpenExternal(" ++ quoted uri ++ ")"
  | .switched name => "Switched(" ++ quoted name ++ ")"
  | .cleared => "Cleared"

def eventNote : PanelEvent → String
  | .openExternal uri => clearLine ++ styled .blue ("[opened in a new tab: " ++ uri ++ "]") ++ lineEnd
  | .switched name => clearLine ++ styled .dim ("[panel: " ++ name ++ "]") ++ lineEnd
  | .cleared => clearScreen

def showEvent (p : Prompter) (e : PanelEvent) : Prompter :=
  (p.note ⟨.info, .prompter, "panel event", [("event", eventText e)]⟩).write (eventNote e)

def drain (p : Prompter) : Prompter :=
  let (events, panel) := p.panel.receive
  events.foldl showEvent { p with panel }

def request (p : Prompter) (r : HostRequest) : Prompter :=
  let (handle, panel) := p.panel.dispatch r
  { p with panel, pending := p.pending ++ handle.toList }

def prune (p : Prompter) : Prompter :=
  { p with pending := p.pending.filter (!p.panel.isFinished ·) }

def elapse (p : Prompter) (ms : Nat) : Prompter :=
  let fired := p.panel.dueAt (p.panel.now + ms)
  fired.foldl (fun p t => p.note ⟨.debug, .panel, "switching panel", [("section", t.name)]⟩)
    { p with panel := p.panel.advance ms }

/-- Waits until no timer is pending, and shows what has happened. -/
def settle (p : Prompter) : Prompter := (p.elapse p.panel.remaining).drain

/-- Leaves: the timers that are remembered are called off. -/
def stop (p : Prompter) : Prompter :=
  { p with panel := p.pending.foldl PanelTimers.abort p.panel, pending := [], isOver := true }

/-! ### Lines -/

/-- Writes the lines of a record, but not those of an echo, which stands on the terminal already. -/
def showRecord (p : Prompter) (r : Record) : Prompter :=
  if r.payload.isEcho then p
  else (r.payload.render p.width p.session.config.promptSymbol).foldl
    (fun p text => p.write (text ++ lineEnd)) p

def process (p : Prompter) (input : String) : Prompter :=
  let (outcome, session) := p.session.submit input
  let p := (p.session.submitEvents input).foldl note p
  let p := { p with session }.note ⟨.debug, .prompter, "line processed",
    [("records", toString outcome.records.length), ("requests", toString outcome.requests.length)]⟩
  let p := (outcome.records.foldl showRecord p).prune
  (outcome.requests.foldl request p).drain

/-! ### Keys -/

def edit (p : Prompter) : Except LineFault InputLine → Prompter
  | .ok line => p.setLine line
  | .error fault => p.fail fault

def replaceLine (p : Prompter) : Option String → Prompter
  | some text => p.setLine (.ofText text)
  | none => p

def complete (p : Prompter) : Prompter :=
  let seed := p.seed.getD p.line.text
  let (accepted, cycle) := p.cycle.accept (p.session.suggest seed)
  { p with cycle, seed := some seed }.replaceLine accepted

def forgetCompletion (p : Prompter) : Prompter := { p with cycle := .idle, seed := none }

def openMenu (p : Prompter) : Prompter := { p.write lineEnd with menu := some (.ofOptions p.session.quickCommands) }

def runChoice (p : Prompter) (command : String) : Prompter :=
  ((p.draw (.ofText command)).write lineEnd).process command

def report (p : Prompter) : Answer → Prompter
  | .failed message => p.write (styled .red ("Quick command menu error: " ++ message) ++ "\n")
  | .chosen _ | .cancelled => p

def type (p : Prompter) (c : Char) : Prompter :=
  if c = '/' && p.line.isEmpty then p.openMenu else p.edit (p.line.insert c)

/-- Of the characters only those are typed that come alone or with Shift. -/
def handleInLine (p : Prompter) : Key → Prompter
  | ⟨.enter, _⟩ => ((p.write lineEnd).process p.line.text).newLine
  | ⟨.backspace, _⟩ => if p.line.cursor = 0 then p else p.edit p.line.removeBefore
  | ⟨.left, _⟩ => if p.line.cursor = 0 then p else p.setLine p.line.left
  | ⟨.right, _⟩ => if p.line.cursor < p.line.length then p.setLine p.line.right else p
  | ⟨.up, _⟩ =>
    let (entry, session) := p.session.recallPrevious
    { p with session }.replaceLine entry
  | ⟨.down, _⟩ =>
    let (entry, session) := p.session.recallNext
    { p with session }.setLine (.ofText (entry.getD ""))
  | ⟨.tab, _⟩ => p.complete
  | key@⟨.char c, modifiers⟩ =>
    if key.isInterrupt then (p.write lineEnd).stop
    else if modifiers = .plain || modifiers = .shifted then p.type c
    else p
  | ⟨.escape, _⟩ | ⟨.other, _⟩ => p

def isDone (p : Prompter) : Bool := p.isOver || p.fault.isSome

/-- Takes in a key, unless it is for the menu. Every key but Tab ends the walk through the completions. -/
def handle (p : Prompter) (key : Key) : Prompter :=
  if p.isDone then p
  else match p.menu with
    | some menu => { p with menu := some (menu.takeIn key) }
    | none => (if key.code = .tab then p else p.forgetCompletion).handleInLine key

/-- Takes in what the menu answers: a command that is chosen is carried out, and a line is begun in any case. The
panel, which is not read while the menu is open, is read then. -/
def answer (p : Prompter) (a : Answer) : Prompter :=
  if p.isDone then p
  else match p.menu with
    | none => p
    | some menu =>
      let closed := { p with menu := none }
      match menu.choice? a with
      | some command => (closed.runChoice command).newLine
      | none => (closed.report a).newLine.drain

/-- A key on a terminal with a menu of arrow keys. -/
def press (p : Prompter) (key : Key) : Prompter :=
  let p := p.handle key
  match p.menu.bind Menu.answer? with
  | some a => p.answer a
  | none => p

end Prompter

end PortfolioShell.Terminal
