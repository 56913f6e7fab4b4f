import PortfolioShell.Proofs.Terminal.Typing

/-! # The course of a line

Timers fire while a line is carried out as well as between two keys. A line is therefore taken apart into
stages, and `Reaches` says what a prompter may come to when time passes before and behind each of them. Whatever
stops it, it calls off the timers that it remembers, one by one, and again time may pass. The runs in which keys
are taken in at once are among these, by `Reaches.after` and `Reaches.ends`. -/

namespace PortfolioShell.Terminal

/-- A part of carrying out a line. -/
inductive Stage where
  | submit (line : String)
  | print (r : Record)
  | prune
  | request (r : HostRequest)
  | drain
  | newLine

namespace Prompter

/-- The session carries out a line, of which nothing is shown yet. -/
def carryOut (p : Prompter) (line : String) : Prompter :=
  { (p.session.submitEvents line).foldl note p with session := (p.session.submit line).2 }.note
    ⟨.debug, .prompter, "line processed", [("records", toString (p.session.submit line).1.records.length),
      ("requests", toString (p.session.submit line).1.requests.length)]⟩

end Prompter

namespace Stage

def act : Stage → Prompter → Prompter
  | .submit line, p => p.carryOut line
  | .print r, p => p.showRecord r
  | .prune, p => p.prune
  | .request r, p => p.request r
  | .drain, p => p.drain
  | .newLine, p => p.newLine

/-- The stages of a line that is submitted in a session. -/
def ofLine (session : Session) (line : String) : List Stage :=
  .submit line :: (session.submit line).1.records.map .print ++ .prune ::
    (session.submit line).1.requests.map .request ++ [.drain, .newLine]

end Stage

namespace Prompter

/-- A key at first, and the stages of the line that it submits. -/
def course (p : Prompter) (key : Key) : Prompter × List Stage :=
  if p.isDone = false ∧ p.menu = none ∧ key.code = .enter then
    (p.forgetCompletion.write lineEnd, Stage.ofLine p.session p.line.text)
  else (p.handle key, [])

/-- An answer of the menu at first, and the stages of the command that it chooses. -/
def courseOfAnswer (p : Prompter) (a : Answer) : Prompter × List Stage :=
  match if p.isDone then none else p.menu.bind (·.choice? a) with
  | some command =>
    (({ p with menu := none }.draw (.ofText command)).write lineEnd, Stage.ofLine p.session command)
  | none => (p.answer a, [])

def Leaves (p : Prompter) (key : Key) : Prop :=
  p.isDone = false ∧ p.menu = none ∧ (key = .control 'c' ∨ key = .control 'd')

/-- What a prompter may have come to, and the stages of a line that are still to come. -/
inductive Reaches (first : Prompter) : Prompter → List Stage → Prop where
  | start : Reaches first first []
  | key {p : Prompter} (key : Key) (stays : ¬ p.Leaves key) (before : Reaches first p []) :
    Reaches first (p.course key).1 (p.course key).2
  | answer {p : Prompter} (a : Answer) (before : Reaches first p []) :
    Reaches first (p.courseOfAnswer a).1 (p.courseOfAnswer a).2
  | stage {p : Prompter} {s : Stage} {rest : List Stage} (before : Reaches first p (s :: rest)) :
    Reaches first (s.act p) rest
  /-- Some finished timers are not known to be so yet. -/
  | lag {p : Prompter} {rest : List Stage} (keep : Nat → Bool)
    (spares : ∀ handle, p.panel.isFinished handle = false → keep handle = true)
    (before : Reaches first p (.prune :: rest)) : Reaches first { p with pending := p.pending.filter keep } rest
  | time {p : Prompter} {stages : List Stage} (ms : Nat) (before : Reaches first p stages) :
    Reaches first (p.elapse ms) stages
  | read {p : Prompter} (before : Reaches first p []) : Reaches first p.drain []

/-- Calls the remembered timers off one by one, while others may still fire. -/
inductive CallsOff : Prompter → Prompter → Prop where
  | done {p : Prompter} (none : p.pending = []) : CallsOff p { p with isOver := true }
  | abort {p q : Prompter} {handle : Nat} {rest : List Nat} (next : p.pending = handle :: rest)
    (later : CallsOff { p with panel := p.panel.abort handle, pending := rest } q) : CallsOff p q
  | time {p q : Prompter} (ms : Nat) (later : CallsOff (p.elapse ms) q) : CallsOff p q

/-- What a prompter is when its run has ended. -/
inductive Ends (first : Prompter) : Prompter → Prop where
  | leaves {p q : Prompter} {key : Key} (leaves : p.Leaves key) (before : Reaches first p [])
    (ends : CallsOff (p.forgetCompletion.write lineEnd) q) : Ends first q
  /-- The terminal fails, which may be when some of what the panel was told has been read. -/
  | fails {p q : Prompter} {stages : List Stage} (unread : List PanelEvent) (some : unread <:+ p.panel.inbox)
    (before : Reaches first p stages) (ends : CallsOff { p with panel := { p.panel with inbox := unread } } q) :
    Ends first q

/-! ### Keys and answers without delay -/

-- in a run a submission stands for itself and is not evaluated
attribute [local irreducible] Session.submit

theorem session_draw (p : Prompter) (line : InputLine) : (p.draw line).session = p.session := by
  rw [draw]
  split <;> rfl

theorem foldl_ofLine (p : Prompter) {session : Session} (same : p.session = session) (line : String) :
    (Stage.ofLine session line).foldl (fun p s => s.act p) p = (p.process line).newLine := by
  subst same
  simp only [Stage.ofLine, List.foldl_cons, List.foldl_append, List.foldl_map, Stage.act, List.foldl_nil,
    carryOut, process]

/-- Stage after stage, with no time in between, a key does what it does at once. -/
theorem foldl_course (p : Prompter) (key : Key) :
    (p.course key).2.foldl (fun p s => s.act p) (p.course key).1 = p.handle key := by
  unfold course
  split
  · rename_i enters
    obtain ⟨code, modifiers⟩ := key
    obtain ⟨going, noMenu, rfl⟩ : p.isDone = false ∧ p.menu = none ∧ code = .enter := enters
    have same : (p.forgetCompletion.write lineEnd).session = p.session := rfl
    have line := foldl_ofLine (p.forgetCompletion.write lineEnd) same p.line.text
    rw [line, handle, if_neg (by simp [going]), noMenu]
    rfl
  · rfl

theorem foldl_courseOfAnswer (p : Prompter) (a : Answer) :
    (p.courseOfAnswer a).2.foldl (fun p s => s.act p) (p.courseOfAnswer a).1 = p.answer a := by
  unfold courseOfAnswer
  split
  · rename_i command chosen
    by_cases done : p.isDone = true
    · rw [if_pos done] at chosen
      cases chosen
    rw [if_neg done, Option.bind_eq_some_iff] at chosen
    obtain ⟨menu, opened, chosen⟩ := chosen
    have same := session_draw { p with menu := none } (.ofText command)
    have line := foldl_ofLine (({ p with menu := none }.draw (.ofText command)).write lineEnd) same command
    rw [answer, if_neg done, opened]
    simp only [chosen]
    exact line
  · rfl

theorem Reaches.foldl {first : Prompter} {stages : List Stage} {p : Prompter} (reached : Reaches first p stages) :
    Reaches first (stages.foldl (fun p s => s.act p) p) [] := by
  induction stages generalizing p with
  | nil => exact reached
  | cons s rest ih => exact ih reached.stage

theorem Reaches.handle {first p : Prompter} (reached : Reaches first p []) {key : Key} (stays : ¬ p.Leaves key) :
    Reaches first (p.handle key) [] :=
  foldl_course p key ▸ (reached.key key stays).foldl

theorem Reaches.answered {first p : Prompter} (reached : Reaches first p []) (a : Answer) :
    Reaches first (p.answer a) [] :=
  foldl_courseOfAnswer p a ▸ (reached.answer a).foldl

/-! ### Leaving -/

theorem callsOff_stop (p : Prompter) : CallsOff p p.stop := by
  suffices all : ∀ (handles : List Nat) (q : Prompter), q.pending = handles →
      CallsOff q { q with panel := handles.foldl PanelTimers.abort q.panel, pending := [], isOver := true } from
    all p.pending p rfl
  intro handles
  induction handles with
  | nil =>
    intro q none
    have same : { q with isOver := true } = { q with pending := [], isOver := true } := by rw [← none]
    exact same ▸ .done none
  | cons handle rest ih =>
    intro q next
    exact .abort next (ih { q with panel := q.panel.abort handle, pending := rest } rfl)

theorem handle_of_leaves {p : Prompter} {key : Key} (leaves : p.Leaves key) :
    p.handle key = (p.forgetCompletion.write lineEnd).stop := by
  obtain ⟨going, noMenu, which⟩ := leaves
  rw [handle, if_neg (by simp [going]), noMenu]
  rcases which with rfl | rfl
  · rfl
  · rfl

theorem Reaches.ends {first p : Prompter} (reached : Reaches first p []) {key : Key} (leaves : p.Leaves key) :
    Ends first (p.handle key) :=
  handle_of_leaves leaves ▸ .leaves leaves reached (callsOff_stop _)

/-! ### Runs -/

theorem foldl_keeps {α β : Type} (view : Prompter → β) (step : Prompter → α → Prompter)
    (same : ∀ p a, view (step p a) = view p) (p : Prompter) (items : List α) :
    view (items.foldl step p) = view p := by
  induction items generalizing p with
  | nil => rfl
  | cons a rest ih => rw [List.foldl_cons, ih, same]

theorem isOver_drain (p : Prompter) : p.drain.isOver = p.isOver :=
  foldl_keeps isOver showEvent (fun _ _ => rfl) _ _

theorem isOver_elapse (p : Prompter) (ms : Nat) : (p.elapse ms).isOver = p.isOver := by
  exact foldl_keeps isOver _ (fun _ _ => by rfl) _ _

theorem isOver_take {p : Prompter} (ended : p.isOver = true) (happening : Happening) :
    (p.take happening).isOver = true := by
  have done : p.isDone = true := by simp [isDone, ended]
  cases happening with
  | key key => rwa [take, handle, if_pos done]
  | answer a => rwa [take, answer, if_pos done]
  | pause ms =>
    rw [take]
    split
    · rwa [isOver_elapse]
    · rwa [isOver_drain, isOver_elapse]

theorem isOver_after {p : Prompter} (ended : p.isOver = true) (happenings : List Happening) :
    (p.after happenings).isOver = true := by
  induction happenings generalizing p with
  | nil => exact ended
  | cons happening rest ih => exact ih (isOver_take ended happening)

theorem Reaches.after {first p : Prompter} (reached : Reaches first p []) (happenings : List Happening)
    (going : (p.after happenings).isOver = false) : Reaches first (p.after happenings) [] := by
  induction happenings generalizing p with
  | nil => exact reached
  | cons happening rest ih =>
    refine ih ?_ going
    cases happening with
    | answer a => exact reached.answered a
    | pause ms =>
      rw [take]
      split
      · exact reached.time ms
      · exact (reached.time ms).read
    | key key =>
      refine reached.handle fun leaves => ?_
      have ended : (p.handle key).isOver = true := by
        rw [handle_of_leaves leaves]
        rfl
      have still : ((p.handle key).after rest).isOver = true := isOver_after ended rest
      rw [Prompter.after, List.foldl_cons, take, ← Prompter.after, still] at going
      exact Bool.noConfusion going

end Prompter

end PortfolioShell.Terminal
