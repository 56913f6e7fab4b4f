import PortfolioShell.Proofs.Shell.Run
import PortfolioShell.Tree.Sample

/-! # Diagnostics

A diagnostic is shown exactly when a command fails, and a command that fails has done nothing: the only
traces of it are the echo, the diagnostic and the entry in the history. -/

namespace PortfolioShell.Session

variable {s : Session} {input : String} {command : CommandLine} {e : Effect}

theorem Achieves.plain (done : s.Achieves command e) : ∀ p ∈ e.payloads, p.isDiagnostic = false := by
  cases done with
  | shows verb plain => exact plain
  | wipes verb => exact fun _ none => absurd none List.not_mem_nil
  | opens verb found => exact fun _ member => List.mem_singleton.mp member ▸ rfl
  | moves verb passes => exact fun _ member => List.mem_singleton.mp member ▸ rfl
  | visits verb named listed =>
    intro p member
    rcases List.mem_append.mp member with described | listing
    · obtain ⟨text, -, rfl⟩ := Option.map_eq_some_iff.mp (Option.mem_toList.mp described)
      rfl
    · exact List.mem_singleton.mp listing ▸ rfl

/-- The line holds a command that ends with an error, whatever it has done before. -/
def Fails (s : Session) (input : String) (err : ShellError) : Prop :=
  ∃ command, CommandLine.parse? (Text.trimmed input) = some command ∧
    ((carryOut command (Text.trimmed input)).run { session := s.entered input }).1 = .error err

theorem fails_iff {err : ShellError} : s.Fails input err ↔
    ∃ command, CommandLine.parse? (Text.trimmed input) = some command ∧
      (s.entered input).effect command (Text.trimmed input) = .error err := by
  apply exists_congr
  intro command
  rw [run_carryOut]
  cases (s.entered input).effect command (Text.trimmed input) with
  | ok e => simp only [Turn.settle, reduceCtorEq]
  | error err => simp only [Turn.settle, Except.error.injEq]

theorem hasDiagnostic_of_blank (sound : s.log.WellNumbered)
    (blank : CommandLine.parse? (Text.trimmed input) = none) : (s.submit input).1.hasDiagnostic = false := by
  rw [Outcome.hasDiagnostic, records_of_blank sound blank]
  rfl

theorem hasDiagnostic_of_ok (sound : s.log.WellNumbered)
    (parsed : CommandLine.parse? (Text.trimmed input) = some command)
    (works : (s.entered input).effect command (Text.trimmed input) = .ok e) :
    (s.submit input).1.hasDiagnostic = false := by
  have done := achieves_of_effect works
  have plain : (Payload.echo s.prompt input :: e.payloads).any Payload.isDiagnostic = false :=
    List.any_eq_false.mpr (List.forall_mem_cons.mpr
      ⟨Bool.false_ne_true, fun p member => by simp [done.plain p member]⟩)
  have kept (keeps : e.clears = false) : (s.submit input).1.hasDiagnostic = false := by
    rw [Outcome.hasDiagnostic, records_of_ok sound parsed works keeps]
    exact (hasDiagnostic_numbered s.log.lastId _ []).trans plain
  cases done with
  | wipes verb =>
    rw [Outcome.hasDiagnostic, records_of_wipes parsed works]
    rfl
  | _ => exact kept rfl

theorem hasDiagnostic_of_error {err : ShellError} (sound : s.log.WellNumbered)
    (parsed : CommandLine.parse? (Text.trimmed input) = some command)
    (fails : (s.entered input).effect command (Text.trimmed input) = .error err) :
    (s.submit input).1.hasDiagnostic = true := by
  rw [Outcome.hasDiagnostic, records_of_error sound parsed fails]
  rfl

/-- A submission shows a diagnostic exactly when the command on the line fails, and then the diagnostic is
that of the error. Besides the echo, the diagnostic and the entry in the history it leaves the session as it
was, and nothing is requested. -/
theorem diagnostic_iff_error (tree : ContentTree) (config : Config) (actions : List Action) (input : String) :
    let s := (start tree config).after actions
    let outcome := (s.submit input).1
    (outcome.hasDiagnostic = true ↔ ∃ err, s.Fails input err) ∧
    (∀ err, s.Fails input err →
      outcome.records = [⟨s.log.lastId + 1, .echo s.prompt input⟩,
        ⟨s.log.lastId + 2, .diagnostic err.kind err.message⟩] ∧
      outcome.requests = [] ∧
      (s.submit input).2 = { s with
        history := s.history.add (Text.trimmed input)
        log := ⟨s.log.records ++ outcome.records, s.log.lastId + 2⟩ }) := by
  intro s outcome
  have sound : s.log.WellNumbered := wellNumbered_after tree config actions
  constructor
  · constructor
    · intro shown
      cases s.handling input with
      | blank nothing => cases (hasDiagnostic_of_blank sound nothing).symm.trans shown
      | works parsed result => cases (hasDiagnostic_of_ok sound parsed result).symm.trans shown
      | fails parsed result => exact ⟨_, fails_iff.mpr ⟨_, parsed, result⟩⟩
    · rintro ⟨err, failing⟩
      obtain ⟨command, parsed, result⟩ := fails_iff.mp failing
      show Outcome.hasDiagnostic _ = true
      rw [Outcome.hasDiagnostic, records_of_error sound parsed result]
      rfl
  · intro err failing
    obtain ⟨command, parsed, result⟩ := fails_iff.mp failing
    have records : outcome.records = [⟨s.log.lastId + 1, .echo s.prompt input⟩,
        ⟨s.log.lastId + 2, .diagnostic err.kind err.message⟩] := records_of_error sound parsed result
    refine ⟨records, ?_, ?_⟩
    · exact congrArg (·.1.requests) (submit_of_error parsed result)
    · rw [records, submit_of_error parsed result]
      simp only [failed, entered, echo, OutputLog.push, List.append_assoc, List.singleton_append]

def diagnosis? (r : Record) : Option (DiagnosticKind × String) :=
  match r.payload with
  | .diagnostic kind message => some (kind, message)
  | _ => none

theorem diagnostic_of_sample_error :
    let s := (start Sample.tree .default).after [.submit "projects", .submit "clear", .recallPrevious]
    let outcome := (s.submit " open  archive ").1
    s.location = ⟨["projects"]⟩ ∧ outcome.hasDiagnostic = true ∧
      outcome.records.map Record.payload =
        [.echo "/projects" " open  archive ", .diagnostic .lookup "open: no such file: archive"] ∧
      outcome.requests = [] ∧ (s.submit " open  archive ").2.location = s.location := by
  intro s outcome
  obtain ⟨shown, leaves⟩ := diagnostic_iff_error Sample.tree .default
    [.submit "projects", .submit "clear", .recallPrevious] " open  archive "
  have place : s.location = ⟨["projects"]⟩ ∧ s.prompt = "/projects" := by decide +kernel
  have diagnostic : outcome.hasDiagnostic = true := by decide +kernel
  have texts : outcome.records.filterMap diagnosis? = [(.lookup, "open: no such file: archive")] := by decide +kernel
  obtain ⟨err, failing⟩ := shown.mp diagnostic
  obtain ⟨records, requests, after⟩ := leaves err failing
  rw [records] at texts
  obtain ⟨kind, message⟩ := Prod.mk.inj (List.singleton_inj.mp texts)
  refine ⟨place.1, diagnostic, ?_, requests, by rw [after]⟩
  rw [records, List.map_cons, List.map_singleton, kind, message, place.2]

end PortfolioShell.Session
