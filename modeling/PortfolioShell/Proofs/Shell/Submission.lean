import PortfolioShell.Proofs.Shell.Effect
import PortfolioShell.Proofs.Shell.Numbering

/-! # Submitted lines

What the submission of a line does to a session. A blank line is echoed; a command has its effect after the
echo, or its error is shown as a diagnostic. In each case the outcome holds the records that the submission
has added and left in the log. -/

namespace PortfolioShell.Session

/-- The session in which the command of a line is carried out: the line is echoed, and it is the newest entry
of the history. -/
def entered (s : Session) (input : String) : Session :=
  { s.echo input with history := s.history.add (Text.trimmed input) }

def settled (s : Session) (e : Effect) : Session :=
  { s with location := e.location, log := (if e.clears then s.log.clear else s.log).pushAll e.payloads }

def failed (s : Session) (err : ShellError) : Session :=
  { s with log := s.log.push (.diagnostic err.kind err.message) }

/-- The line gives a verb, in some spelling, with an argument. -/
def Says (input : String) (verb : Verb) (args : String) : Prop :=
  ∃ command, CommandLine.parse? (Text.trimmed input) = some command ∧
    Verb.ofWord? command.word = some verb ∧ command.args = args

variable {s : Session} {input : String} {command : CommandLine} {e : Effect} {err : ShellError}

/-! ### The three kinds of submission -/

theorem submit_of_blank (blank : CommandLine.parse? (Text.trimmed input) = none) :
    s.submit input = (⟨(s.echo input).log.since s.log.lastId, []⟩, s.echo input) := by
  simp only [submit, blank]

theorem enter_echo (s : Session) (input : String) (command : CommandLine) :
    (s.echo input).enter command (Text.trimmed input) =
      let (result, turn) := Turn.settle { session := s.entered input }
        ((s.entered input).effect command (Text.trimmed input))
      (turn.requests, { turn.session with log := turn.session.log.pushAll (shownOf result) }) := by
  rw [← run_carryOut { session := s.entered input }]
  rfl

theorem submit_of_ok (parsed : CommandLine.parse? (Text.trimmed input) = some command)
    (works : (s.entered input).effect command (Text.trimmed input) = .ok e) :
    s.submit input =
      (⟨((s.entered input).settled e).log.since s.log.lastId, e.requests⟩, (s.entered input).settled e) := by
  simp only [submit, parsed, enter_echo, works]
  rfl

theorem submit_of_error (parsed : CommandLine.parse? (Text.trimmed input) = some command)
    (fails : (s.entered input).effect command (Text.trimmed input) = .error err) :
    s.submit input =
      (⟨((s.entered input).failed err).log.since s.log.lastId, []⟩, (s.entered input).failed err) := by
  simp only [submit, parsed, enter_echo, fails]
  rfl

/-- What can become of a line: it is blank, its command fails, or its command has an effect. -/
inductive Handling (s : Session) (input : String) : Prop where
  | blank (nothing : CommandLine.parse? (Text.trimmed input) = none)
  | fails {command : CommandLine} {err : ShellError} (parsed : CommandLine.parse? (Text.trimmed input) = some command)
      (result : (s.entered input).effect command (Text.trimmed input) = .error err)
  | works {command : CommandLine} {e : Effect} (parsed : CommandLine.parse? (Text.trimmed input) = some command)
      (result : (s.entered input).effect command (Text.trimmed input) = .ok e)

theorem handling (s : Session) (input : String) : s.Handling input := by
  cases parsed : CommandLine.parse? (Text.trimmed input) with
  | none => exact .blank parsed
  | some command =>
    cases result : (s.entered input).effect command (Text.trimmed input) with
    | error err => exact .fails parsed result
    | ok e => exact .works parsed result

/-! ### The records of an outcome -/

theorem records_of_blank (sound : s.log.WellNumbered)
    (blank : CommandLine.parse? (Text.trimmed input) = none) :
    (s.submit input).1.records = OutputLog.numbered s.log.lastId [.echo s.prompt input] := by
  rw [submit_of_blank blank]
  exact sound.since_pushAll [.echo s.prompt input]

theorem records_of_ok (sound : s.log.WellNumbered)
    (parsed : CommandLine.parse? (Text.trimmed input) = some command)
    (works : (s.entered input).effect command (Text.trimmed input) = .ok e) (keeps : e.clears = false) :
    (s.submit input).1.records = OutputLog.numbered s.log.lastId (.echo s.prompt input :: e.payloads) := by
  rw [submit_of_ok parsed works, settled, keeps]
  exact sound.since_pushAll (.echo s.prompt input :: e.payloads)

theorem records_of_wipes (parsed : CommandLine.parse? (Text.trimmed input) = some command)
    (works : (s.entered input).effect command (Text.trimmed input) = .ok (s.entered input).wipes) :
    (s.submit input).1.records = [] := by
  rw [submit_of_ok parsed works]
  exact OutputLog.since_clear _ _

theorem records_of_error (sound : s.log.WellNumbered)
    (parsed : CommandLine.parse? (Text.trimmed input) = some command)
    (fails : (s.entered input).effect command (Text.trimmed input) = .error err) :
    (s.submit input).1.records =
      OutputLog.numbered s.log.lastId [.echo s.prompt input, .diagnostic err.kind err.message] := by
  rw [submit_of_error parsed fails]
  exact sound.since_pushAll [.echo s.prompt input, .diagnostic err.kind err.message]

theorem hasDiagnostic_numbered (last : Nat) (payloads : List Payload) (requests : List HostRequest) :
    Outcome.hasDiagnostic ⟨OutputLog.numbered last payloads, requests⟩ = payloads.any Payload.isDiagnostic := by
  conv_rhs => rw [← OutputLog.payloads_numbered last payloads, List.any_map]
  rfl

end PortfolioShell.Session
