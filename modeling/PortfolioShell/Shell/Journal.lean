import PortfolioShell.Logging.Event
import PortfolioShell.Shell.Session
import PortfolioShell.Text.Quoted

/-! # Journal of a session

The events that a submitted line notes in the log: that a command is carried out, where a walk through the
content met a file, and what came of the command. -/

namespace PortfolioShell.Session

open Logging

def lookedUp? (s : Session) (command : CommandLine) : Option Location :=
  match Verb.ofWord? command.word with
  | some .ls => some (s.location.resolve command.args)
  | some .cd => some (s.destination command.args)
  | some .cat | some .openLink =>
    if command.args = "" then none else some (s.location.resolve command.args)
  | _ => none

def lookupEvents (s : Session) (command : CommandLine) : List Event :=
  match s.lookedUp? command with
  | none => []
  | some place =>
    ((s.tree.root.blockedAt? place.segments).map fun name =>
      ⟨.trace, .tree, "lookup stopped at a file", [("location", place.toText), ("segment", name)]⟩).toList

def resultEvents (s : Session) (command : CommandLine) (line : String) : List Event :=
  match (carryOut command line).run { session := s } with
  | (.error err, _) => [⟨.warn, .session, "command failed", [("err", err.message)]⟩]
  | (.ok _, turn) =>
    match Verb.ofWord? command.word with
    | some .cd => [⟨.info, .session, "changed directory", [("location", turn.session.prompt)]⟩]
    | none =>
      [⟨.info, .session, "opened section", [("section", turn.session.location.sectionName?.getD "")]⟩]
    | _ => []

def submitEvents (s : Session) (input : String) : List Event :=
  let line := Text.trimmed input
  match CommandLine.parse? line with
  | none => []
  | some command =>
    ⟨.debug, .session, "dispatching",
        [("verb", Text.quoted command.word), ("args", Text.quoted command.args)]⟩ ::
      (s.lookupEvents command ++ s.resultEvents command line)

end PortfolioShell.Session
