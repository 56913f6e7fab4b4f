import PortfolioShell.Proofs.Shell.Run

/-! # Lines that say a verb

A line with a verb on it counts only by the verb and the argument: `effectOf` has no other input, and it is
the effect of every such line, however it is written (`Says.effect`). What is shown of the line follows,
whether the effect comes about or not. -/

namespace PortfolioShell.Session

variable {s : Session} {input args : String} {verb : Verb} {e : Effect} {err : ShellError}

def effectOf (s : Session) (args : String) : Verb → Except ShellError Effect
  | .help => .ok (s.shows [.lines (Verb.menu s.tree.sections)])
  | .clear => .ok s.wipes
  | .pwd => .ok (s.shows [.text s.prompt])
  | .ls => s.listEffect args
  | .cd => s.changeEffect args
  | .cat => s.readEffect .cat args
  | .openLink => s.readEffect .openLink args
  | .history => .ok (s.historyEffect args)

theorem effect_of_verb {command : CommandLine} (spelled : Verb.ofWord? command.word = some verb) (s : Session)
    (line : String) : s.effect command line = s.effectOf command.args verb := by
  rw [effect, spelled]
  cases verb <;> rfl

/-- Only `history` sees that a line has been echoed and kept before its command is carried out. -/
theorem effectOf_entered (other : verb ≠ .history) (s : Session) (input args : String) :
    (s.entered input).effectOf args verb = s.effectOf args verb := by
  cases verb with
  | history => exact absurd rfl other
  | _ => rfl

theorem Says.effect (said : Says input verb args) (other : verb ≠ .history) (s : Session) :
    ∃ command, CommandLine.parse? (Text.trimmed input) = some command ∧
      Verb.ofWord? command.word = some verb ∧
      (s.entered input).effect command (Text.trimmed input) = s.effectOf args verb := by
  obtain ⟨command, parsed, spelled, rfl⟩ := said
  exact ⟨command, parsed, spelled, by rw [effect_of_verb spelled, effectOf_entered other]⟩

/-! ### What is shown -/

/-- The records that the line has left hold its echo, and then these payloads. -/
def Shows (s : Session) (input : String) (payloads : List Payload) : Prop :=
  (s.submit input).1.records.map Record.payload = .echo s.prompt input :: payloads

theorem submit_of_effectOf_error (sound : s.log.WellNumbered) (said : Says input verb args) (other : verb ≠ .history)
    (fails : s.effectOf args verb = .error err) :
    (s.submit input).1 = ⟨OutputLog.numbered s.log.lastId [.echo s.prompt input, .diagnostic err.kind err.message], []⟩ ∧
      (s.submit input).2.location = s.location := by
  obtain ⟨command, parsed, -, result⟩ := said.effect other s
  rw [fails] at result
  have records := records_of_error sound parsed result
  rw [submit_of_error parsed result] at records ⊢
  exact ⟨congrArg (Outcome.mk · []) records, rfl⟩

theorem submit_of_effectOf_ok (sound : s.log.WellNumbered) (said : Says input verb args) (other : verb ≠ .history)
    (works : s.effectOf args verb = .ok e) (keeps : e.clears = false) :
    (s.submit input).1 = ⟨OutputLog.numbered s.log.lastId (.echo s.prompt input :: e.payloads), e.requests⟩ ∧
      (s.submit input).2.location = e.location := by
  obtain ⟨command, parsed, -, result⟩ := said.effect other s
  rw [works] at result
  have records := records_of_ok sound parsed result keeps
  rw [submit_of_ok parsed result] at records ⊢
  exact ⟨congrArg (Outcome.mk · e.requests) records, rfl⟩

theorem shows_of_effectOf_error (sound : s.log.WellNumbered) (said : Says input verb args) (other : verb ≠ .history)
    (fails : s.effectOf args verb = .error err) : s.Shows input [.diagnostic err.kind err.message] := by
  rw [Shows, (submit_of_effectOf_error sound said other fails).1, OutputLog.payloads_numbered]

theorem shows_of_effectOf_ok (sound : s.log.WellNumbered) (said : Says input verb args) (other : verb ≠ .history)
    (works : s.effectOf args verb = .ok e) (keeps : e.clears = false) : s.Shows input e.payloads := by
  rw [Shows, (submit_of_effectOf_ok sound said other works keeps).1, OutputLog.payloads_numbered]

end PortfolioShell.Session
