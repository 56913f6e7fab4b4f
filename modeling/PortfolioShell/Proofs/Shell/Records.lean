import Mathlib.Data.List.DropRight
import PortfolioShell.Proofs.Shell.Run
import PortfolioShell.Tree.Sample

/-! # Records of a run

The outcomes of a run and its log tell the same: the log holds what has been returned since the last clear,
and the numbers of what is returned go on increasing past all that were ever given out. -/

namespace PortfolioShell.Session

def clears (input : String) : Bool :=
  (CommandLine.parse? (Text.trimmed input)).any fun command => Verb.ofWord? command.word = some .clear

def submitAll (s : Session) (lines : List String) : Session := s.after (lines.map .submit)

def answers (s : Session) : List String → List (String × Outcome)
  | [] => []
  | line :: rest => (line, (s.submit line).1) :: (s.submit line).2.answers rest

/-- All that a submission does with the log. -/
def logChanges (s : Session) (input : String) : List OutputLog.Change :=
  .push (.echo s.prompt input) :: match CommandLine.parse? (Text.trimmed input) with
    | none => []
    | some command => match (s.entered input).effect command (Text.trimmed input) with
      | .ok e => (if e.clears then [.clear] else []) ++ e.payloads.map .push
      | .error err => [.push (.diagnostic err.kind err.message)]

def allLogChanges (s : Session) : List String → List OutputLog.Change
  | [] => []
  | line :: rest => s.logChanges line ++ (s.submit line).2.allLogChanges rest

variable {s : Session} {input : String} {command : CommandLine} {e : Effect}

/-! ### One submission -/

theorem log_submit (s : Session) (input : String) : (s.submit input).2.log = s.log.changed (s.logChanges input) := by
  cases s.handling input with
  | blank nothing =>
    rw [submit_of_blank nothing]
    simp only [logChanges, nothing]
    rfl
  | fails parsed result =>
    rw [submit_of_error parsed result]
    simp only [logChanges, parsed, result]
    rfl
  | @works command e parsed result =>
    rw [submit_of_ok parsed result]
    simp only [logChanges, parsed, result, OutputLog.changed, OutputLog.changed_append, OutputLog.changed_map_push,
      settled]
    cases e.clears <;> rfl

theorem Achieves.clears_eq (done : s.Achieves command e) :
    e.clears = decide (Verb.ofWord? command.word = some .clear) := by
  cases done with
  | shows verb plain => exact (decide_eq_false verb).symm
  | wipes verb => exact (decide_eq_true verb).symm
  | opens verb found => rw [verb]; rfl
  | moves verb passes => rw [verb]; rfl
  | visits verb named listed => rw [verb]; rfl

theorem submit_of_clears (wiped : clears input = true) :
    (s.submit input).1.records = [] ∧ (s.submit input).2.log.records = [] := by
  obtain ⟨command, parsed, verb⟩ := (Option.any_eq_true _ _).mp wiped
  have works : (s.entered input).effect command (Text.trimmed input) = .ok (s.entered input).wipes := by
    simp only [effect, of_decide_eq_true verb]
  refine ⟨records_of_wipes parsed works, ?_⟩
  rw [submit_of_ok parsed works]
  rfl

theorem submit_of_keeps (sound : s.log.WellNumbered) (kept : clears input = false) : ∃ payloads,
    (s.submit input).1.records = OutputLog.numbered s.log.lastId payloads ∧
      (s.submit input).2.log = s.log.pushAll payloads := by
  cases s.handling input with
  | blank nothing => exact ⟨_, records_of_blank sound nothing, congrArg (·.2.log) (submit_of_blank nothing)⟩
  | fails parsed result =>
    exact ⟨_, records_of_error sound parsed result, congrArg (·.2.log) (submit_of_error parsed result)⟩
  | @works command e parsed result =>
    have keeps : e.clears = false := by
      rw [(achieves_of_effect result).clears_eq]
      simpa [clears, parsed] using kept
    refine ⟨_, records_of_ok sound parsed result keeps, ?_⟩
    rw [submit_of_ok parsed result, settled, keeps]
    rfl

theorem ids_submit (sound : s.log.WellNumbered) (input : String) :
    (∀ r ∈ (s.submit input).1.records, s.log.lastId < r.id ∧ r.id ≤ (s.submit input).2.log.lastId) ∧
      ((s.submit input).1.records.map Record.id).Pairwise (· < ·) := by
  cases wiped : clears input with
  | true =>
    rw [(submit_of_clears wiped).1]
    exact ⟨List.forall_mem_nil _, .nil⟩
  | false =>
    obtain ⟨payloads, returned, log⟩ := submit_of_keeps sound wiped
    rw [returned, log, OutputLog.ids_numbered, OutputLog.lastId_pushAll]
    refine ⟨fun r member => ?_, List.pairwise_lt_range'⟩
    have listed := List.mem_map_of_mem (f := Record.id) member
    rw [OutputLog.ids_numbered, List.mem_range'_1] at listed
    omega

/-! ### A run -/

-- in a run a submission stands for itself and is not evaluated
attribute [local irreducible] submit

theorem submitAll_cons (s : Session) (line : String) (rest : List String) :
    s.submitAll (line :: rest) = (s.submit line).2.submitAll rest := by
  rw [submitAll, List.map_cons, after, List.foldl_cons, act, ← after, ← submitAll]

theorem submitAll_concat (s : Session) (lines : List String) (line : String) :
    s.submitAll (lines ++ [line]) = ((s.submitAll lines).submit line).2 := by
  simp only [submitAll, after, List.map_append, List.map_cons, List.map_nil, List.foldl_append, List.foldl_cons,
    List.foldl_nil, act]

theorem answers_concat (s : Session) (lines : List String) (line : String) :
    s.answers (lines ++ [line]) = s.answers lines ++ [(line, ((s.submitAll lines).submit line).1)] := by
  induction lines generalizing s with
  | nil => rfl
  | cons first rest ih => rw [List.cons_append, answers, ih, answers, List.cons_append, submitAll_cons]

theorem log_submitAll (s : Session) (lines : List String) :
    (s.submitAll lines).log = s.log.changed (s.allLogChanges lines) := by
  induction lines generalizing s with
  | nil => rfl
  | cons line rest ih => rw [submitAll_cons, ih, log_submit, allLogChanges, OutputLog.changed_append]

def returned (answers : List (String × Outcome)) : List Record := answers.flatMap (·.2.records)

theorem returned_concat (answers : List (String × Outcome)) (line : String) (outcome : Outcome) :
    returned (answers ++ [(line, outcome)]) = returned answers ++ outcome.records := by
  rw [returned, List.flatMap_append, List.flatMap_singleton, ← returned]

/-- The answers since the last line that clears the log. -/
def sinceClear (answers : List (String × Outcome)) : List (String × Outcome) :=
  answers.rtakeWhile fun answer => !clears answer.1

section Start

variable (tree : ContentTree) (config : Config) (lines : List String)

theorem wellNumbered_submitAll : ((start tree config).submitAll lines).log.WellNumbered :=
  wellNumbered_after tree config (lines.map .submit)

theorem records_submitAll : ((start tree config).submitAll lines).log.records =
    returned (sinceClear ((start tree config).answers lines)) := by
  induction lines using List.reverseRecOn with
  | nil => rfl
  | append_singleton lines line ih =>
    rw [submitAll_concat, answers_concat, sinceClear, List.rtakeWhile_concat]
    cases wiped : clears line with
    | true => exact (submit_of_clears wiped).2
    | false =>
      obtain ⟨payloads, records, log⟩ := submit_of_keeps (wellNumbered_submitAll tree config lines) wiped
      rw [Bool.not_false, if_pos rfl, ← sinceClear, returned_concat, ← ih, log, OutputLog.records_pushAll, records]

theorem ids_answers :
    (∀ r ∈ returned ((start tree config).answers lines), r.id ≤ ((start tree config).submitAll lines).log.lastId) ∧
      ((returned ((start tree config).answers lines)).map Record.id).Pairwise (· < ·) := by
  induction lines using List.reverseRecOn with
  | nil => exact ⟨List.forall_mem_nil _, .nil⟩
  | append_singleton lines line ih =>
    obtain ⟨earlier, sorted⟩ := ih
    obtain ⟨new, order⟩ := ids_submit (wellNumbered_submitAll tree config lines) line
    have grows : ((start tree config).submitAll lines).log.lastId ≤
        (((start tree config).submitAll lines).submit line).2.log.lastId := by
      rw [log_submit]
      exact OutputLog.lastId_le_changed _ _
    rw [submitAll_concat, answers_concat, returned_concat]
    constructor
    · exact List.forall_mem_append.mpr ⟨fun r member => (earlier r member).trans grows, fun r member => (new r member).2⟩
    · rw [List.map_append, List.pairwise_append]
      refine ⟨sorted, order, ?_⟩
      intro _ before _ behind
      obtain ⟨q, given, rfl⟩ := List.mem_map.mp before
      obtain ⟨r, fresh, rfl⟩ := List.mem_map.mp behind
      exact (earlier q given).trans_lt (new r fresh).1

theorem records_of_clearing_answer (s : Session) :
    ∀ answer ∈ s.answers lines, clears answer.1 = true → answer.2.records = [] := by
  induction lines generalizing s with
  | nil => exact List.forall_mem_nil _
  | cons line rest ih =>
    rw [answers, List.forall_mem_cons]
    exact ⟨fun wiped => (submit_of_clears wiped).1, ih (s.submit line).2⟩

end Start

/-- After every run the log holds what has been returned since the last clear, in order. A clear returns
nothing; the numbers of all returned records increase; and what comes next has greater numbers than all that
were given out, to records that were cleared too. -/
theorem log_holds_returned_since_clear (tree : ContentTree) (config : Config) (lines : List String) :
    let s := (start tree config).submitAll lines
    let answers := (start tree config).answers lines
    let changes := (start tree config).allLogChanges lines
    s.log.records = returned (sinceClear answers) ∧
    (∀ answer ∈ answers, clears answer.1 = true → answer.2.records = []) ∧
    ((returned answers).map Record.id).Pairwise (· < ·) ∧
    s.log = OutputLog.empty.changed changes ∧
    (∀ next, ∀ r ∈ (s.submit next).1.records, ∀ id ∈ OutputLog.empty.assigned changes, id < r.id) := by
  intro s answers changes
  have log : s.log = OutputLog.empty.changed changes := log_submitAll (start tree config) lines
  refine ⟨records_submitAll tree config lines, records_of_clearing_answer lines (start tree config),
    (ids_answers tree config lines).2, log, ?_⟩
  intro next r member id given
  have old : id ≤ s.log.lastId := log ▸ OutputLog.assigned_le_lastId OutputLog.empty changes id given
  have new : s.log.lastId < r.id := ((ids_submit (wellNumbered_submitAll tree config lines) next).1 r member).1
  exact old.trans_lt new

theorem log_holds_returned_in_sample_run :
    let s := (start Sample.tree .default).submitAll ["pwd", " CLEAR ", "nowhere"]
    let answers := (start Sample.tree .default).answers ["pwd", " CLEAR ", "nowhere"]
    s.log.records.map Record.id = [4, 5] ∧ (returned (sinceClear answers)).map Record.id = [4, 5] ∧
      (∀ answer ∈ answers, answer.1 = " CLEAR " → answer.2.records = []) ∧
      (∀ r ∈ (s.submit "ls").1.records, 3 < r.id) := by
  intro s answers
  obtain ⟨records, cleared, -, -, increasing⟩ :=
    log_holds_returned_since_clear Sample.tree .default ["pwd", " CLEAR ", "nowhere"]
  have held : s.log.records.map Record.id = [4, 5] := by decide +kernel
  have wiped : 3 ∈ OutputLog.empty.assigned
      ((start Sample.tree .default).allLogChanges ["pwd", " CLEAR ", "nowhere"]) := by
    decide +kernel
  refine ⟨held, records ▸ held, ?_, fun r member => increasing "ls" r member 3 wiped⟩
  intro answer member line
  exact cleared answer member (line ▸ by decide +kernel)

end PortfolioShell.Session
