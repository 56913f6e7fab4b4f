import PortfolioShell.Proofs.Panel.Deliveries

/-! # Finished timers

A timer that has fired or has been called off is finished, and stays so. A request adds at most one timer that
is not, calling one off finishes it, and a panel without any is told nothing more by time alone. -/

namespace PortfolioShell.PanelTimers

variable {p : PanelTimers} {handle : Nat}

theorem isFinished_eq_false_iff : p.isFinished handle = false ↔
    ∃ t, p.timers[handle]? = some t ∧ t.isPending = true := by
  simp [isFinished, Option.any_eq_true]

theorem isFinished_congr {q : PanelTimers} (same : q.timers = p.timers) (handle : Nat) :
    q.isFinished handle = p.isFinished handle := by
  rw [isFinished, isFinished, same]

theorem lt_of_unfinished (unfinished : p.isFinished handle = false) : handle < p.timers.length := by
  obtain ⟨t, found, -⟩ := isFinished_eq_false_iff.mp unfinished
  exact (List.getElem?_eq_some_iff.mp found).1

/-! ### What can be unfinished after a step -/

theorem isPending_of_reach {t : Timer} {time : Nat} (pending : (t.reach time).isPending = true) :
    t.isPending = true := by
  by_cases due : t.isDueAt time = true
  · rw [Timer.reach, if_pos due] at pending
    exact Bool.noConfusion pending
  · rwa [Timer.reach, if_neg due] at pending

theorem isPending_abort (t : Timer) : t.abort.isPending = false := by
  cases pending : t.isPending with
  | true =>
    rw [Timer.abort, if_pos pending]
    rfl
  | false => rwa [Timer.abort, pending]

theorem abort_abort (t : Timer) : t.abort.abort = t.abort := by
  rw [Timer.abort, isPending_abort]
  rfl

theorem unfinished_of_advance {ms : Nat} (unfinished : (p.advance ms).isFinished handle = false) :
    p.isFinished handle = false := by
  obtain ⟨t, found, pending⟩ := isFinished_eq_false_iff.mp unfinished
  rw [advance, List.getElem?_map, Option.map_eq_some_iff] at found
  obtain ⟨before, found, rfl⟩ := found
  exact isFinished_eq_false_iff.mpr ⟨before, found, isPending_of_reach pending⟩

theorem unfinished_of_abort {off : Nat} (unfinished : (p.abort off).isFinished handle = false) :
    handle ≠ off ∧ p.isFinished handle = false := by
  obtain ⟨t, found, pending⟩ := isFinished_eq_false_iff.mp unfinished
  rw [abort, List.getElem?_modify, Option.map_eq_map, Option.map_eq_some_iff] at found
  obtain ⟨before, found, rfl⟩ := found
  by_cases own : off = handle
  · rw [if_pos own, isPending_abort] at pending
    exact Bool.noConfusion pending
  · rw [if_neg own] at pending
    exact ⟨Ne.symm own, isFinished_eq_false_iff.mpr ⟨before, found, pending⟩⟩

theorem dispatch_cases (p : PanelTimers) (r : HostRequest) :
    ((p.dispatch r).1 = none ∧ (p.dispatch r).2.timers = p.timers) ∨
    ∃ t, (p.dispatch r).1 = some p.timers.length ∧ (p.dispatch r).2.timers = p.timers ++ [t] := by
  by_cases atOnce : r.delay = 0
  · rw [dispatch_at_once atOnce]
    exact .inl ⟨rfl, timers_tell p _⟩
  · obtain ⟨name, -, timer⟩ := Post.timer?_of_delay (q := ⟨r, p.now, false⟩) atOnce
    rw [dispatch_delayed atOnce, List.filterMap_cons_some (timer p.now)]
    exact .inr ⟨_, rfl, rfl⟩

theorem unfinished_of_append {q : PanelTimers} {t : Timer} (added : q.timers = p.timers ++ [t])
    (unfinished : q.isFinished handle = false) : handle = p.timers.length ∨ p.isFinished handle = false := by
  by_cases last : handle = p.timers.length
  · exact .inl last
  · have bound := lt_of_unfinished unfinished
    rw [added, List.length_append, List.length_singleton] at bound
    obtain ⟨before, found, pending⟩ := isFinished_eq_false_iff.mp unfinished
    rw [added, List.getElem?_append_left (Nat.lt_of_le_of_ne (Nat.le_of_lt_succ bound) last)] at found
    exact .inr (isFinished_eq_false_iff.mpr ⟨before, found, pending⟩)

/-! ### When all are finished -/

theorem finished_advance (finished : ∀ handle, p.isFinished handle = true) (ms : Nat) (handle : Nat) :
    (p.advance ms).isFinished handle = true := by
  by_contra unfinished
  have before := unfinished_of_advance (Bool.eq_false_of_not_eq_true unfinished)
  rw [finished handle] at before
  exact Bool.noConfusion before

theorem inbox_advance_of_finished (finished : ∀ handle, p.isFinished handle = true) (ms : Nat) :
    (p.advance ms).inbox = p.inbox := by
  have none : p.timers.filter (·.isDueAt (p.now + ms)) = [] := by
    rw [List.filter_eq_nil_iff]
    intro t member due
    obtain ⟨handle, found⟩ := List.mem_iff_getElem?.mp member
    have unfinished := isFinished_eq_false_iff.mpr ⟨t, found, (Bool.and_eq_true_iff.mp due).1⟩
    rw [finished handle] at unfinished
    exact Bool.noConfusion unfinished
  rw [advance, dueAt, none, List.mergeSort_nil]
  show (p.tell []).inbox = p.inbox
  rw [tell]
  split
  · exact List.append_nil _
  · rfl

theorem inbox_of_finished (finished : ∀ handle, p.isFinished handle = true) (pauses : List Nat) :
    (pauses.foldl advance p).inbox = p.inbox := by
  induction pauses generalizing p with
  | nil => rfl
  | cons ms rest ih =>
    rw [List.foldl_cons, ih (finished_advance finished ms), inbox_advance_of_finished finished]

/-! ### Calling off one after the other -/

theorem timers_foldl_abort (handles : List Nat) (handle : Nat) :
    (handles.foldl abort p).timers[handle]? =
      p.timers[handle]?.map fun t => if handle ∈ handles then t.abort else t := by
  induction handles generalizing p with
  | nil => simp
  | cons off rest ih =>
    rw [List.foldl_cons, ih, abort, List.getElem?_modify, Option.map_eq_map, Option.map_map]
    refine congrArg (p.timers[handle]?.map ·) (funext fun t => ?_)
    by_cases own : off = handle
    · by_cases again : handle ∈ rest <;> simp [own, again, abort_abort]
    · by_cases later : handle ∈ rest <;> simp [own, later, Ne.symm own]

end PortfolioShell.PanelTimers
