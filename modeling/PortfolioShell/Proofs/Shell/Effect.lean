import PortfolioShell.Shell.Session

/-! # Effects of commands

What a command does as one value: where it leads, what it requests and what it shows. The main statement,
`run_carryOut`, says that a command which works on a turn step by step either has exactly its effect, or
fails and leaves the turn as it was. -/

namespace PortfolioShell

structure Effect where
  location : Location
  requests : List HostRequest := []
  clears : Bool := false
  payloads : List Payload := []

namespace Turn

def after (t : Turn) (e : Effect) : Turn where
  session := { t.session with
    location := e.location, log := if e.clears then t.session.log.clear else t.session.log }
  requests := t.requests ++ e.requests

/-- What a command gives that has an effect, or that does nothing and fails. -/
def settle (t : Turn) : Except ShellError Effect → Except ShellError (List Payload) × Turn
  | .ok e => (.ok e.payloads, t.after e)
  | .error err => (.error err, t)

end Turn

namespace Session

def shows (s : Session) (payloads : List Payload) : Effect := { location := s.location, payloads }

def listEffect (s : Session) (args : String) : Except ShellError Effect :=
  match s.tree.listing (s.location.resolve args) with
  | .entries entries => .ok (s.shows [.listing (s.location.resolve args).toText entries false])
  | .notADirectory => .ok (s.shows [.text ("ls: " ++ args ++ ": not a directory")])
  | .notFound => .error (.noSuchDirectory "ls" args)

def followRequests (s : Session) (target : Location) : List HostRequest :=
  match target.segments with
  | [name] => [.switchPanel name s.config.navigationDelay.toNat]
  | _ => []

def moves (s : Session) (target : Location) : Effect where
  location := target
  requests := s.followRequests target
  payloads := [.text ("Changed directory to " ++ target.toText)]

def changeEffect (s : Session) (args : String) : Except ShellError Effect :=
  if (s.destination args).isRoot || s.tree.isDirectory (s.destination args) then
    .ok (s.moves (s.destination args))
  else .error (.noSuchDirectory "cd" args)

def opens (s : Session) (uri : String) : Effect where
  location := s.location
  requests := [.openExternal uri]
  payloads := [.text ("Opening " ++ uri ++ " ...")]

def fileEffect (s : Session) (verb : Verb) (name : String) (content : Content) (link : Option String) : Effect :=
  match verb, link with
  | .openLink, some uri => s.opens uri
  | _, _ => s.shows [.content name content]

def readEffect (s : Session) (verb : Verb) (args : String) : Except ShellError Effect :=
  if args = "" then .error (.missingFileArgument verb.name)
  else match s.tree.lookup (s.location.resolve args) with
    | some (.file label content link) => .ok (s.fileEffect verb label.name content link)
    | _ => .error (.noSuchFile verb.name args)

def historyEffect (s : Session) (args : String) : Effect :=
  s.shows [.lines (if args = "" then s.history.summary else s.history.search args)]

def visits (s : Session) (name : String) (entries : List Entry) : Effect where
  location := Location.root.join name
  requests := [.switchPanel name 0]
  payloads := ((s.tree.description? (Location.root.join name)).map Payload.text).toList ++
    [.listing (Location.root.join name).toText entries true]

def sectionEffect (s : Session) (word line : String) : Except ShellError Effect :=
  match s.tree.findSection? word with
  | none => .error (.commandNotFound line)
  | some name =>
    match s.tree.listing (Location.root.join name) with
    | .entries entries => .ok (s.visits name entries)
    | _ => .error (.commandNotFound line)

def wipes (s : Session) : Effect where
  location := s.location
  requests := [.clearPanel]
  clears := true

def effect (s : Session) (command : CommandLine) (line : String) : Except ShellError Effect :=
  match Verb.ofWord? command.word with
  | some .help => .ok (s.shows [.lines (Verb.menu s.tree.sections)])
  | some .clear => .ok s.wipes
  | some .pwd => .ok (s.shows [.text s.prompt])
  | some .ls => s.listEffect command.args
  | some .cd => s.changeEffect command.args
  | some .cat => s.readEffect .cat command.args
  | some .openLink => s.readEffect .openLink command.args
  | some .history => .ok (s.historyEffect command.args)
  | none => s.sectionEffect command.word line

/-! ### Commands have their effects -/

variable (t : Turn)

theorem settle_shows (payloads : List Payload) :
    t.settle (.ok (t.session.shows payloads)) = (.ok payloads, t) := by
  simp [Turn.settle, Turn.after, shows]

theorem run_list (args : String) : (list args).run t = t.settle (t.session.listEffect args) := by
  rw [list, Work.run_bind, Work.run_session, listEffect]
  cases found : t.session.tree.listing (t.session.location.resolve args) with
  | entries entries => simp only [found, settle_shows, Work.run_pure]
  | notADirectory => simp only [found, settle_shows, Work.run_pure]
  | notFound => simp only [found, Turn.settle, Work.run_throw]

theorem run_followIntoSection : followIntoSection.run t =
    (.ok (), { t with requests := t.requests ++ t.session.followRequests t.session.location }) := by
  rw [followIntoSection, Work.run_bind, Work.run_session, followRequests]
  match place : t.session.location.segments with
  | [] => simp only [place, List.append_nil, Work.run_pure]
  | [name] => simp only [place, Work.run_request]
  | _ :: _ :: _ => simp only [place, List.append_nil, Work.run_pure]

/-- Only a change of directory that has been checked moves the session and makes a request. -/
theorem run_changeDirectory (args : String) :
    (changeDirectory args).run t = t.settle (t.session.changeEffect args) := by
  rw [changeDirectory, Work.run_bind, Work.run_session, changeEffect]
  by_cases passes : ((t.session.destination args).isRoot ||
      t.session.tree.isDirectory (t.session.destination args)) = true
  · simp only [passes, if_true, Work.run_bind, Work.run_pure, Work.run_moveTo, run_followIntoSection,
      Work.run_session, Turn.settle]
    rfl
  · simp only [passes, Turn.settle]
    rfl

theorem run_readFile (verb : Verb) (args : String) :
    (readFile verb args).run t = t.settle (t.session.readEffect verb args) := by
  rw [readFile, readEffect]
  by_cases missing : args = ""
  · simp only [missing, if_true, Work.run_bind, Work.run_throw, Turn.settle]
  · simp only [missing, if_false, Work.run_bind, Work.run_session]
    cases t.session.tree.lookup (t.session.location.resolve args) with
    | none => simp only [Work.run_throw, Turn.settle]
    | some n =>
      cases n with
      | directory label children => simp only [Work.run_throw, Turn.settle]
      | file label content link =>
        simp only [fileEffect]
        split
        · simp only [Work.run_bind, Work.run_request, Work.run_pure, Turn.settle]
          rfl
        · simp only [settle_shows, Work.run_pure]

theorem run_showHistory (args : String) :
    (showHistory args).run t = t.settle (.ok (t.session.historyEffect args)) := by
  rw [showHistory, Work.run_bind, Work.run_session, historyEffect, settle_shows]
  rfl

theorem run_openSection (word line : String) :
    (openSection word line).run t = t.settle (t.session.sectionEffect word line) := by
  rw [openSection, Work.run_bind, Work.run_session, sectionEffect]
  cases named : t.session.tree.findSection? word with
  | none => simp only [named, Work.run_throw, Turn.settle]
  | some name =>
    cases found : t.session.tree.listing (Location.root.join name) with
    | entries entries =>
      simp only [named, found, Work.run_bind, Work.run_moveTo, Work.run_request, Work.run_session,
        Work.run_pure, Turn.settle]
      rfl
    | notADirectory => simp only [named, found, Work.run_throw, Turn.settle]
    | notFound => simp only [named, found, Work.run_throw, Turn.settle]

/-- A command has its effect, or it fails and leaves the turn as it was. -/
theorem run_carryOut (command : CommandLine) (line : String) :
    (carryOut command line).run t = t.settle (t.session.effect command line) := by
  rw [carryOut, effect]
  cases Verb.ofWord? command.word with
  | none => exact run_openSection t command.word line
  | some verb =>
    cases verb with
    | help => simp only [Work.run_bind, Work.run_session, Work.run_pure, settle_shows]
    | clear =>
      simp only [Work.run_bind, Work.run_clearLog, Work.run_request, Work.run_pure]
      rfl
    | pwd => simp only [Work.run_bind, Work.run_session, Work.run_pure, settle_shows]
    | ls => exact run_list t command.args
    | cd => exact run_changeDirectory t command.args
    | cat => exact run_readFile t .cat command.args
    | openLink => exact run_readFile t .openLink command.args
    | history => exact run_showHistory t command.args

/-! ### What a command can achieve -/

inductive Achieves (s : Session) (command : CommandLine) : Effect → Prop where
  | shows {payloads : List Payload} (verb : Verb.ofWord? command.word ≠ some .clear)
      (plain : ∀ p ∈ payloads, p.isDiagnostic = false) : Achieves s command (s.shows payloads)
  | wipes (verb : Verb.ofWord? command.word = some .clear) : Achieves s command s.wipes
  | opens {label : Label} {content : Content} {uri : String} (verb : Verb.ofWord? command.word = some .openLink)
      (found : s.tree.lookup (s.location.resolve command.args) = some (.file label content (some uri))) :
      Achieves s command (s.opens uri)
  | moves (verb : Verb.ofWord? command.word = some .cd)
      (passes : ((s.destination command.args).isRoot || s.tree.isDirectory (s.destination command.args)) = true) :
      Achieves s command (s.moves (s.destination command.args))
  | visits {name : String} {entries : List Entry} (verb : Verb.ofWord? command.word = none)
      (named : s.tree.findSection? command.word = some name)
      (listed : s.tree.listing (Location.root.join name) = .entries entries) :
      Achieves s command (s.visits name entries)

variable {s : Session} {command : CommandLine} {line : String} {e : Effect}

theorem Achieves.of_shows_one {p : Payload} (verb : Verb.ofWord? command.word ≠ some .clear)
    (plain : p.isDiagnostic = false) : Achieves s command (s.shows [p]) :=
  .shows verb fun _ member => List.mem_singleton.mp member ▸ plain

theorem Achieves.of_list (verb : Verb.ofWord? command.word = some .ls)
    (works : s.listEffect command.args = .ok e) : Achieves s command e := by
  have other : Verb.ofWord? command.word ≠ some .clear := by simp [verb]
  rw [listEffect] at works
  split at works
  · exact Except.ok.inj works ▸ .of_shows_one other rfl
  · exact Except.ok.inj works ▸ .of_shows_one other rfl
  · cases works

theorem Achieves.of_change (verb : Verb.ofWord? command.word = some .cd)
    (works : s.changeEffect command.args = .ok e) : Achieves s command e := by
  rw [changeEffect] at works
  split at works
  · rename_i passes
    exact Except.ok.inj works ▸ .moves verb passes
  · cases works

theorem Achieves.of_read {verb : Verb} (spelled : Verb.ofWord? command.word = some verb) (other : verb ≠ .clear)
    (works : s.readEffect verb command.args = .ok e) : Achieves s command e := by
  have other : Verb.ofWord? command.word ≠ some .clear := by simpa [spelled] using other
  rw [readEffect] at works
  split at works
  · cases works
  · split at works
    · rename_i label content link found
      obtain rfl := Except.ok.inj works
      unfold fileEffect
      split
      · exact .opens spelled found
      · exact .of_shows_one other rfl
    · cases works

theorem Achieves.of_section (verb : Verb.ofWord? command.word = none)
    (works : s.sectionEffect command.word line = .ok e) : Achieves s command e := by
  rw [sectionEffect] at works
  split at works
  · cases works
  · rename_i name named
    split at works
    · rename_i entries listed
      exact Except.ok.inj works ▸ .visits verb named listed
    · cases works

theorem achieves_of_effect (works : s.effect command line = .ok e) : Achieves s command e := by
  rw [effect] at works
  cases verb : Verb.ofWord? command.word with
  | none => exact .of_section verb (by simpa only [verb] using works)
  | some v =>
    simp only [verb] at works
    cases v with
    | help => exact Except.ok.inj works ▸ .of_shows_one (by simp [verb]) rfl
    | clear => exact Except.ok.inj works ▸ .wipes verb
    | pwd => exact Except.ok.inj works ▸ .of_shows_one (by simp [verb]) rfl
    | ls => exact .of_list verb works
    | cd => exact .of_change verb works
    | cat => exact .of_read verb (by decide) works
    | openLink => exact .of_read verb (by decide) works
    | history => exact Except.ok.inj works ▸ .of_shows_one (by simp [verb]) rfl

end Session

end PortfolioShell
