import PortfolioShell.Proofs.Shell.Submission

/-! # Runs of a session

What a host can ask of a session, in any order and for as long as it likes. What every single action keeps
holds after every run: the tree and the settings stay, and the log is well numbered. -/

namespace PortfolioShell.Session

inductive Action where
  | submit (line : String)
  | recallPrevious
  | recallNext
  | suggest (typed : String)
  | quickCommands

inductive Reply where
  | submitted (outcome : Outcome)
  | recalled (line : Option String)
  | offered (lines : List String)

def act (s : Session) : Action → Reply × Session
  | .submit line => (.submitted (s.submit line).1, (s.submit line).2)
  | .recallPrevious => (.recalled s.recallPrevious.1, s.recallPrevious.2)
  | .recallNext => (.recalled s.recallNext.1, s.recallNext.2)
  | .suggest typed => (.offered (s.suggest typed), s)
  | .quickCommands => (.offered s.quickCommands, s)

def after (s : Session) (actions : List Action) : Session := actions.foldl (fun s a => (s.act a).2) s

/-- What a submission keeps, and recalls do not touch, holds after every run. -/
theorem after_keeps {P : Session → Prop} (submits : ∀ s line, P s → P (s.submit line).2)
    (recalls : ∀ (s : Session) history, P s → P { s with history }) {s : Session} (actions : List Action)
    (start : P s) : P (s.after actions) := by
  induction actions generalizing s with
  | nil => exact start
  | cons a rest ih =>
    rw [after, List.foldl_cons, ← after]
    apply ih
    cases a with
    | submit line => simpa only [act] using submits s line start
    | recallPrevious => exact recalls s s.history.previous.2 start
    | recallNext => exact recalls s s.history.next.2 start
    | suggest typed => exact start
    | quickCommands => exact start

theorem submit_keeps {P : Session → Prop} {s : Session} {input : String} (blank : P (s.echo input))
    (works : ∀ command e, (s.entered input).Achieves command e → P ((s.entered input).settled e))
    (fails : ∀ err, P ((s.entered input).failed err)) : P (s.submit input).2 := by
  cases s.handling input with
  | blank nothing => simpa only [submit_of_blank nothing] using blank
  | fails parsed result => simpa only [submit_of_error parsed result] using fails _
  | works parsed result => simpa only [submit_of_ok parsed result] using works _ _ (achieves_of_effect result)

theorem requests_submit (s : Session) (input : String) : (s.submit input).1.requests = [] ∨
    ∃ command e, (s.entered input).Achieves command e ∧ (s.submit input).1.requests = e.requests := by
  cases s.handling input with
  | blank nothing => exact .inl (congrArg (·.1.requests) (submit_of_blank nothing))
  | fails parsed result => exact .inl (congrArg (·.1.requests) (submit_of_error parsed result))
  | works parsed result =>
    exact .inr ⟨_, _, achieves_of_effect result, congrArg (·.1.requests) (submit_of_ok parsed result)⟩

theorem tree_submit (s : Session) (input : String) : (s.submit input).2.tree = s.tree :=
  submit_keeps (P := fun after => after.tree = s.tree) rfl (fun _ _ _ => rfl) (fun _ => rfl)

theorem config_submit (s : Session) (input : String) : (s.submit input).2.config = s.config :=
  submit_keeps (P := fun after => after.config = s.config) rfl (fun _ _ _ => rfl) (fun _ => rfl)

theorem tree_after (s : Session) (actions : List Action) : (s.after actions).tree = s.tree :=
  after_keeps (P := fun after => after.tree = s.tree)
    (fun now line same => (tree_submit now line).trans same) (fun _ _ same => same) actions rfl

theorem config_after (s : Session) (actions : List Action) : (s.after actions).config = s.config :=
  after_keeps (P := fun after => after.config = s.config)
    (fun now line same => (config_submit now line).trans same) (fun _ _ same => same) actions rfl

theorem wellNumbered_submit {s : Session} (sound : s.log.WellNumbered) (input : String) :
    (s.submit input).2.log.WellNumbered := by
  have echoed := sound.push (.echo s.prompt input)
  refine submit_keeps (P := fun after => after.log.WellNumbered) echoed (fun command e _ => ?_) (fun err => ?_)
  · apply OutputLog.WellNumbered.pushAll
    split
    · exact .clear _
    · exact echoed
  · exact echoed.push (.diagnostic err.kind err.message)

theorem wellNumbered_after (tree : ContentTree) (config : Config) (actions : List Action) :
    ((start tree config).after actions).log.WellNumbered :=
  after_keeps (P := fun s => s.log.WellNumbered) (fun _ line sound => wellNumbered_submit sound line)
    (fun _ _ sound => sound) actions OutputLog.wellNumbered_empty

end PortfolioShell.Session
