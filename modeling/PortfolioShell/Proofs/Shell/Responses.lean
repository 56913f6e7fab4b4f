import PortfolioShell.Proofs.Shell.Run
import PortfolioShell.Tree.Sample

/-! # Responses

What is seen of the submission of a line: the payloads of its records, its requests and the place where it
leaves the session. Of a session only the tree, the settings and the location matter for it, unless the line
asks for the history (`Alike.respond`). So two sessions at one place respond alike to every script of other
lines, whatever they have been through before (`responses_depend_on_place`). -/

namespace PortfolioShell.Session

open Text

structure Response where
  payloads : List Payload
  requests : List HostRequest
  location : Location

def respond (s : Session) (line : String) : Response where
  payloads := (s.submit line).1.records.map Record.payload
  requests := (s.submit line).1.requests
  location := (s.submit line).2.location

/-- The responses to a script, line by line. -/
def responses (s : Session) : List String → List Response
  | [] => []
  | line :: rest => s.respond line :: (s.submit line).2.responses rest

/-- The line has this verb, in some spelling. -/
def hasVerb (verb : Verb) (line : String) : Bool :=
  (CommandLine.parse? (trimmed line)).any fun command => Verb.ofWord? command.word = some verb

/-- The two sessions differ at most in what they remember: in their histories and their logs. -/
structure Alike (s t : Session) : Prop where
  tree : s.tree = t.tree
  config : s.config = t.config
  location : s.location = t.location

variable {s t : Session} {line : String} {command : CommandLine}

/-- The response of a session whose log is well numbered, to a line that does not ask for the history. -/
def answer (s : Session) (line : String) : Response :=
  match CommandLine.parse? (trimmed line) with
  | none => ⟨[.echo s.prompt line], [], s.location⟩
  | some command => match s.effect command (trimmed line) with
    | .ok e => ⟨if e.clears then [] else .echo s.prompt line :: e.payloads, e.requests, e.location⟩
    | .error err => ⟨[.echo s.prompt line, .diagnostic err.kind err.message], [], s.location⟩

/-! ### One line -/

/-- No other command than `history` reads the history, and none reads the log. -/
theorem Alike.effect (alike : s.Alike t) (other : Verb.ofWord? command.word ≠ some .history) (line : String) :
    s.effect command line = t.effect command line := by
  obtain ⟨tree, config, location, history, log⟩ := s
  obtain ⟨tree', config', location', history', log'⟩ := t
  obtain ⟨rfl, rfl, rfl⟩ := alike
  rw [Session.effect, Session.effect]
  cases spelled : Verb.ofWord? command.word with
  | none => rfl
  | some verb =>
    cases verb with
    | history => exact absurd spelled other
    | _ => rfl

theorem ofWord?_ne_of_hasVerb {verb : Verb} (other : hasVerb verb line = false)
    (parsed : CommandLine.parse? (trimmed line) = some command) : Verb.ofWord? command.word ≠ some verb := by
  intro spelled
  rw [hasVerb, parsed, Option.any_some, decide_eq_true spelled] at other
  cases other

theorem respond_eq_answer (sound : s.log.WellNumbered) (other : hasVerb .history line = false) :
    s.respond line = s.answer line := by
  have entered : Alike (s.entered line) s := ⟨rfl, rfl, rfl⟩
  cases s.handling line with
  | blank nothing =>
    rw [respond, answer, nothing, records_of_blank sound nothing, submit_of_blank nothing, OutputLog.payloads_numbered]
    rfl
  | fails parsed result =>
    have same := entered.effect (ofWord?_ne_of_hasVerb other parsed) (trimmed line)
    rw [respond, answer, parsed, records_of_error sound parsed result, submit_of_error parsed result,
      OutputLog.payloads_numbered]
    simp only [← same, result]
    rfl
  | @works command e parsed result =>
    have same := entered.effect (ofWord?_ne_of_hasVerb other parsed) (trimmed line)
    have payloads : (s.submit line).1.records.map Record.payload =
        if e.clears then [] else .echo s.prompt line :: e.payloads := by
      cases keeps : e.clears with
      | false =>
        rw [records_of_ok sound parsed result keeps, OutputLog.payloads_numbered]
        rfl
      | true =>
        cases achieves_of_effect result with
        | wipes verb =>
          rw [records_of_wipes parsed result]
          rfl
        | _ => cases keeps
    rw [respond, answer, parsed, payloads, submit_of_ok parsed result]
    simp only [← same, result]
    rfl

theorem Alike.answer (alike : s.Alike t) (other : hasVerb .history line = false) : s.answer line = t.answer line := by
  have prompt : s.prompt = t.prompt := congrArg Location.toText alike.location
  rw [Session.answer, Session.answer, prompt, alike.location]
  cases parsed : CommandLine.parse? (trimmed line) with
  | none => rfl
  | some command => simp only [alike.effect (ofWord?_ne_of_hasVerb other parsed) (trimmed line)]

theorem Alike.respond (alike : s.Alike t) (sound : s.log.WellNumbered) (sound' : t.log.WellNumbered)
    (other : hasVerb .history line = false) : s.respond line = t.respond line := by
  rw [respond_eq_answer sound other, respond_eq_answer sound' other, alike.answer other]

-- from here on a submission stands for itself and is not evaluated
attribute [local irreducible] Session.submit

theorem Alike.submit (alike : s.Alike t) (responds : s.respond line = t.respond line) :
    (s.submit line).2.Alike (t.submit line).2 where
  tree := by rw [tree_submit, tree_submit, alike.tree]
  config := by rw [config_submit, config_submit, alike.config]
  location := congrArg Response.location responds

/-! ### A script -/

theorem Alike.responses {lines : List String} (alike : s.Alike t) (sound : s.log.WellNumbered)
    (sound' : t.log.WellNumbered) (other : ∀ line ∈ lines, hasVerb .history line = false) :
    s.responses lines = t.responses lines := by
  induction lines generalizing s t with
  | nil => rfl
  | cons line rest ih =>
    obtain ⟨first, other⟩ := List.forall_mem_cons.mp other
    have responds : s.respond line = t.respond line := alike.respond sound sound' first
    rw [Session.responses, Session.responses, responds, ih (alike.submit responds) (wellNumbered_submit sound line)
      (wellNumbered_submit sound' line) other]

/-- Two sessions over the same tree and settings that are at the same place, whatever each of them has been
through, respond alike to every line of every script that does not ask for the history. -/
theorem responses_depend_on_place (tree : ContentTree) (config : Config) (actions actions' : List Action)
    (meet : ((start tree config).after actions).location = ((start tree config).after actions').location)
    (lines : List String) (other : ∀ line ∈ lines, hasVerb .history line = false) :
    ((start tree config).after actions).responses lines = ((start tree config).after actions').responses lines := by
  have alike : Alike ((start tree config).after actions) ((start tree config).after actions') :=
    ⟨by rw [tree_after, tree_after], by rw [config_after, config_after], meet⟩
  exact alike.responses (wellNumbered_after tree config actions) (wellNumbered_after tree config actions') other

theorem responses_of_sample_meeting :
    let s := (start Sample.tree .default).after [.submit "history", .submit "cd projects", .recallPrevious]
    let t := (start Sample.tree .default).after [.submit "skills", .submit "clear", .submit "Projects"]
    let script := ["ls archive", "clear", " ", "nowhere", "cd ..", "OPEN contact/github"]
    s.location = t.location ∧ s.history ≠ t.history ∧ s.log.records.length = 4 ∧ t.log.records.length = 3 ∧
      (∀ line ∈ script, hasVerb .history line = false) ∧ s.responses script = t.responses script := by
  intro s t script
  have meet : s.location = t.location := by decide +kernel
  have other : ∀ line ∈ script, hasVerb .history line = false := by decide +kernel
  exact ⟨meet, by decide +kernel, by decide +kernel, by decide +kernel, other,
    responses_depend_on_place Sample.tree .default _ _ meet script other⟩

end PortfolioShell.Session
