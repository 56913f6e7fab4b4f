import PortfolioShell.Proofs.Panel.Finished
import PortfolioShell.Proofs.Terminal.Course
import PortfolioShell.Tree.Sample

/-! # Pending timers

A timer that is not finished is remembered exactly once, at every moment of a run: a request adds the handle that
it is given, and of those that are remembered only finished ones are dropped. So when a run ends and the
remembered timers are called off, none is left behind that could still tell the panel something. -/

namespace PortfolioShell.Terminal.Prompter

-- a submission stands for itself and is not evaluated
attribute [local irreducible] Session.submit

/-! ### What leaves the timers as they are -/

/-- The timers that were set, and those that are remembered. -/
def watch (p : Prompter) : List Timer × List Nat := (p.panel.timers, p.pending)

variable {p q : Prompter}

theorem watch_draw (p : Prompter) (line : InputLine) : (p.draw line).watch = p.watch := by
  rw [draw]
  split <;> rfl

theorem watch_setLine (p : Prompter) (line : InputLine) : (p.setLine line).watch = p.watch :=
  watch_draw { p with line } line

theorem watch_newLine (p : Prompter) : p.newLine.watch = p.watch := p.watch_setLine .empty

theorem watch_edit (p : Prompter) (edited : Except LineFault InputLine) : (p.edit edited).watch = p.watch := by
  cases edited with
  | ok line => exact p.watch_setLine line
  | error fault => rfl

theorem watch_replaceLine (p : Prompter) (text : Option String) : (p.replaceLine text).watch = p.watch := by
  cases text with
  | some text => exact p.watch_setLine (.ofText text)
  | none => rfl

theorem watch_type (p : Prompter) (c : Char) : (p.type c).watch = p.watch := by
  rw [type]
  split
  · rfl
  · exact p.watch_edit _

theorem watch_handleInLine (p : Prompter) {key : Key} (other : key.code ≠ .enter) (stays : ¬ key.isInterrupt = true) :
    (p.handleInLine key).watch = p.watch := by
  obtain ⟨code, modifiers⟩ := key
  cases code with
  | enter => exact absurd rfl other
  | char c =>
    rw [handleInLine, if_neg stays]
    split
    · exact p.watch_type c
    · rfl
  | backspace =>
    rw [handleInLine]
    split
    · rfl
    · exact p.watch_edit _
  | left =>
    rw [handleInLine]
    split
    · rfl
    · exact p.watch_setLine _
  | right =>
    rw [handleInLine]
    split
    · exact p.watch_setLine _
    · rfl
  | up => exact watch_replaceLine _ _
  | down => exact watch_setLine _ _
  | tab => exact watch_replaceLine _ _
  | escape => rfl
  | other => rfl

theorem watch_course (p : Prompter) {key : Key} (stays : ¬ p.Leaves key) : (p.course key).1.watch = p.watch := by
  unfold course
  split
  · rfl
  · rename_i other
    show (p.handle key).watch = p.watch
    by_cases done : p.isDone = true
    · rw [handle, if_pos done]
    rw [handle, if_neg done]
    have going : p.isDone = false := Bool.eq_false_of_not_eq_true done
    cases noMenu : p.menu with
    | some menu => rfl
    | none =>
      have noEnter : key.code ≠ .enter := fun enter => other ⟨going, noMenu, enter⟩
      have inLine : ¬ key.isInterrupt = true := fun interrupt => stays ⟨going, noMenu, key.isInterrupt_iff.mp interrupt⟩
      simp only
      split
      · exact p.watch_handleInLine noEnter inLine
      · exact p.forgetCompletion.watch_handleInLine noEnter inLine

theorem watch_drain (p : Prompter) : p.drain.watch = p.watch :=
  foldl_keeps watch showEvent (fun _ _ => rfl) _ _

theorem watch_report (p : Prompter) (a : Answer) : (p.report a).watch = p.watch := by
  cases a <;> rfl

theorem watch_courseOfAnswer (p : Prompter) (a : Answer) : (p.courseOfAnswer a).1.watch = p.watch := by
  unfold courseOfAnswer
  split
  · exact watch_draw _ _
  · rename_i unchosen
    show (p.answer a).watch = p.watch
    rw [answer]
    split
    · rfl
    · rename_i going
      rw [if_neg going] at unchosen
      cases opened : p.menu with
      | none => rfl
      | some menu =>
        rw [opened, Option.bind_some] at unchosen
        simp only [unchosen]
        rw [watch_drain, watch_newLine, watch_report]
        rfl

theorem watch_carryOut (p : Prompter) (line : String) : (p.carryOut line).watch = p.watch := by
  have noted := foldl_keeps watch note (fun _ _ => rfl) p (p.session.submitEvents line)
  simp only [watch, carryOut, note]
  exact noted

theorem watch_showRecord (p : Prompter) (r : Record) : (p.showRecord r).watch = p.watch := by
  rw [showRecord]
  split
  · rfl
  · exact foldl_keeps watch _ (fun _ _ => by rfl) p _

/-! ### What is remembered -/

/-- Every timer that is not finished is remembered once, and what is remembered are timers that were set. -/
structure Remembers (p : Prompter) : Prop where
  once : ∀ handle, p.panel.isFinished handle = false → p.pending.count handle = 1
  known : ∀ handle ∈ p.pending, handle < p.panel.timers.length

namespace Remembers

theorem of_watch (h : p.Remembers) (same : q.watch = p.watch) : q.Remembers := by
  have timers : q.panel.timers = p.panel.timers := congrArg Prod.fst same
  have pending : q.pending = p.pending := congrArg Prod.snd same
  refine ⟨fun handle unfinished => ?_, fun handle member => ?_⟩
  · rw [PanelTimers.isFinished_congr timers] at unfinished
    rw [pending]
    exact h.once handle unfinished
  · rw [timers]
    exact h.known handle (pending ▸ member)

theorem filter (h : p.Remembers) {keep : Nat → Bool}
    (spares : ∀ handle, p.panel.isFinished handle = false → keep handle = true) :
    { p with pending := p.pending.filter keep }.Remembers := by
  refine ⟨fun handle unfinished => ?_, fun handle member => h.known handle (List.mem_of_mem_filter member)⟩
  rw [List.count_filter (spares handle unfinished)]
  exact h.once handle unfinished

theorem prune (h : p.Remembers) : p.prune.Remembers := h.filter fun _ unfinished => by rw [unfinished]; rfl

theorem add (h : p.Remembers) {t : Timer} (timers : q.panel.timers = p.panel.timers ++ [t])
    (pending : q.pending = p.pending ++ [p.panel.timers.length]) : q.Remembers := by
  refine ⟨fun handle unfinished => ?_, fun handle member => ?_⟩
  · rw [pending, List.count_append]
    by_cases last : handle = p.panel.timers.length
    · have fresh : p.pending.count handle = 0 :=
        List.count_eq_zero.mpr fun member => (h.known handle member).ne last
      rw [fresh, last, List.count_singleton_self]
    · have before := (PanelTimers.unfinished_of_append timers unfinished).resolve_left last
      rw [h.once handle before, List.count_singleton, if_neg (by simpa using Ne.symm last)]
  · rw [timers, List.length_append, List.length_singleton]
    rw [pending, List.mem_append, List.mem_singleton] at member
    rcases member with old | rfl
    · exact Nat.lt_succ_of_lt (h.known handle old)
    · exact Nat.lt_succ_self _

theorem request (h : p.Remembers) (r : HostRequest) : (p.request r).Remembers := by
  have pending : (p.request r).pending = p.pending ++ (p.panel.dispatch r).1.toList := rfl
  rcases p.panel.dispatch_cases r with ⟨none, timers⟩ | ⟨t, handle, timers⟩
  · rw [none, Option.toList_none, List.append_nil] at pending
    exact h.of_watch (Prod.ext timers pending)
  · rw [handle, Option.toList_some] at pending
    exact h.add timers pending

theorem abort (h : p.Remembers) {off : Nat} {rest : List Nat} (next : p.pending = off :: rest) :
    { p with panel := p.panel.abort off, pending := rest }.Remembers := by
  refine ⟨fun handle unfinished => ?_, fun handle member => ?_⟩
  · obtain ⟨other, before⟩ := PanelTimers.unfinished_of_abort unfinished
    have once := h.once handle before
    rwa [next, List.count_cons_of_ne (Ne.symm other)] at once
  · have same : (p.panel.abort off).timers.length = p.panel.timers.length := List.length_modify _ _ _
    exact same ▸ h.known handle (next ▸ List.mem_cons_of_mem _ member)

theorem elapse (h : p.Remembers) (ms : Nat) : (p.elapse ms).Remembers := by
  have later : { p with panel := p.panel.advance ms }.Remembers := by
    refine ⟨fun handle unfinished => h.once handle (PanelTimers.unfinished_of_advance unfinished), ?_⟩
    intro handle member
    have same : (p.panel.advance ms).timers.length = p.panel.timers.length := List.length_map _
    exact same ▸ h.known handle member
  exact later.of_watch (foldl_keeps watch _ (fun _ _ => by rfl) _ _)

theorem act (h : p.Remembers) (s : Stage) : (s.act p).Remembers := by
  cases s with
  | submit line => exact h.of_watch (p.watch_carryOut line)
  | print r => exact h.of_watch (p.watch_showRecord r)
  | prune => exact h.prune
  | request r => exact h.request r
  | drain => exact h.of_watch p.watch_drain
  | newLine => exact h.of_watch p.watch_newLine

end Remembers

theorem remembers_start (session : Session) (width : Nat) : (start session width).Remembers := by
  have fresh : ({ session, width } : Prompter).Remembers :=
    ⟨fun _ unfinished => Bool.noConfusion unfinished, List.forall_mem_nil _⟩
  exact fresh.of_watch (watch_newLine _)

theorem Reaches.remembers {first : Prompter} {stages : List Stage} (reached : Reaches first p stages)
    (h : first.Remembers) : p.Remembers := by
  induction reached with
  | start => exact h
  | key key stays before ih => exact ih.of_watch (watch_course _ stays)
  | answer a before ih => exact ih.of_watch (watch_courseOfAnswer _ a)
  | stage before ih => exact ih.act _
  | lag keep spares before ih => exact ih.filter spares
  | time ms before ih => exact ih.elapse ms
  | read before ih => exact ih.of_watch (watch_drain _)

/-! ### The end -/

theorem CallsOff.finished (ends : CallsOff p q) (h : p.Remembers) (handle : Nat) :
    q.panel.isFinished handle = true := by
  induction ends with
  | done none =>
    -- nothing is remembered any more, though an unfinished timer would be
    by_contra unfinished
    have once := h.once handle (Bool.eq_false_of_not_eq_true unfinished)
    rw [none] at once
    exact Nat.zero_ne_one once
  | abort next later ih => exact ih (h.abort next)
  | time ms later ih => exact ih (h.elapse ms)

theorem Ends.finished {first : Prompter} (ends : Ends first p) (h : first.Remembers) (handle : Nat) :
    p.panel.isFinished handle = true := by
  cases ends with
  | leaves leaves before ends =>
    exact ends.finished ((before.remembers h).of_watch rfl) handle
  | fails unread some before ends =>
    exact ends.finished ((before.remembers h).of_watch rfl) handle

theorem Remembers.aborted_by_stop (h : p.Remembers) {handle : Nat}
    (unfinished : p.panel.isFinished handle = false) :
    p.stop.panel.timers[handle]?.map Timer.state = some .aborted := by
  obtain ⟨t, found, pending⟩ := PanelTimers.isFinished_eq_false_iff.mp unfinished
  have member : handle ∈ p.pending := List.one_le_count_iff.mp (h.once handle unfinished).ge
  rw [stop, PanelTimers.timers_foldl_abort, found, Option.map_some, if_pos member, Timer.abort, if_pos pending]
  rfl

/-- In every run a timer that is not finished is remembered exactly once, so that leaving calls it off; however
the run ends, all timers are finished then and the panel is told nothing more. The runs are those of the
prompter, with timers that may also fire while a line is carried out. -/
theorem pending_timers_of_run (tree : ContentTree) (config : Config) (width : Nat) :
    let first := start (.start tree config) width
    (∀ (p : Prompter) (stages : List Stage), Reaches first p stages →
      ∀ handle, p.panel.isFinished handle = false →
        p.pending.count handle = 1 ∧ p.stop.panel.timers[handle]?.map Timer.state = some .aborted) ∧
    (∀ p : Prompter, Ends first p → (∀ handle, p.panel.isFinished handle = true) ∧
      ∀ pauses : List Nat, (pauses.foldl PanelTimers.advance p.panel).inbox = p.panel.inbox) ∧
    ∀ happenings : List Happening, (first.after happenings).isOver = false →
      Reaches first (first.after happenings) [] ∧
      ∀ key, (first.after happenings).Leaves key → Ends first ((first.after happenings).handle key) := by
  intro first
  have fresh : first.Remembers := remembers_start (.start tree config) width
  refine ⟨fun p stages reached handle unfinished => ?_, fun p ends => ?_, fun happenings going => ?_⟩
  · have remembers : p.Remembers := reached.remembers fresh
    exact ⟨remembers.once handle unfinished, remembers.aborted_by_stop unfinished⟩
  · have finished := ends.finished fresh
    exact ⟨finished, PanelTimers.inbox_of_finished finished⟩
  · have reached : Reaches first (first.after happenings) [] := Reaches.start.after happenings going
    exact ⟨reached, fun key leaves => reached.ends leaves⟩

theorem pending_timer_of_sample_run :
    let first := start (.start Sample.tree .default) 80
    let p := first.after (("cd projects".toList.map fun c => .key (.char c)) ++ [.key .enter, .pause 100])
    let q := p.handle .interrupt
    p.panel.isFinished 0 = false ∧ p.pending.count 0 = 1 ∧ Ends first q ∧ q.panel.isFinished 0 = true ∧
      ([500].foldl PanelTimers.advance q.panel).inbox = q.panel.inbox := by
  intro first p q
  obtain ⟨remembered, ended, runs⟩ := pending_timers_of_run Sample.tree .default 80
  obtain ⟨waits, stays, going, noMenu⟩ :
      p.panel.isFinished 0 = false ∧ p.isOver = false ∧ p.isDone = false ∧ p.menu = none := by decide +kernel
  have leaves : p.Leaves .interrupt := ⟨going, noMenu, .inl rfl⟩
  obtain ⟨reached, leave⟩ := runs _ stays
  have ends : Ends first q := leave .interrupt leaves
  obtain ⟨finished, told⟩ := ended q ends
  exact ⟨waits, (remembered p [] reached 0 waits).1, ends, finished 0, told [500]⟩

end PortfolioShell.Terminal.Prompter
