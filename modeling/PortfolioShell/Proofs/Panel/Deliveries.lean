import PortfolioShell.Panel.Timers
import PortfolioShell.Proofs.Panel.InOrder

/-! # Deliveries to the panel

The requests that have been passed on, each with its time, say all about the timers and about what the panel
has been told: a request is told when its delay has run out, unless its timer has been called off before,
and requests are told in the order in which they are due. -/

namespace PortfolioShell

namespace HostRequest

def event : HostRequest → PanelEvent
  | .openExternal uri => .openExternal uri
  | .switchPanel name _ => .switched name
  | .clearPanel => .cleared

def delay : HostRequest → Nat
  | .switchPanel _ delay => delay
  | _ => 0

end HostRequest

/-- A request that has been passed on. -/
structure Post where
  request : HostRequest
  time : Nat
  /-- Whether its timer has been called off in time. -/
  dropped : Bool := false
  deriving DecidableEq

namespace Post

def event (q : Post) : PanelEvent := q.request.event

def due (q : Post) : Nat := q.time + q.request.delay

def isDelayed (q : Post) : Bool := q.request.delay != 0

def isTold (now : Nat) (q : Post) : Bool := !q.dropped && q.due ≤ now

def state (now : Nat) (q : Post) : TimerState :=
  if q.dropped then .aborted else if q.due ≤ now then .fired else .pending

def timer? (now : Nat) (q : Post) : Option Timer :=
  match q.request with
  | .switchPanel name (delay + 1) => some ⟨name, q.time + (delay + 1), q.state now⟩
  | _ => none

def drop (now : Nat) (q : Post) : Post := if now < q.due then { q with dropped := true } else q

/-- Calls off the timer with a number. Only delayed requests have timers. -/
def callOff (now : Nat) : Nat → List Post → List Post
  | _, [] => []
  | n, q :: rest =>
    if q.request.delay = 0 then q :: callOff now n rest
    else if n = 0 then q.drop now :: rest
    else q :: callOff now (n - 1) rest

def told (now : Nat) (posts : List Post) : List PanelEvent :=
  (inOrder due (posts.filter (isTold now))).map event

/-! ### Single requests -/

theorem due_of_now {q : Post} (atOnce : q.request.delay = 0) : q.due = q.time := by
  rw [due, atOnce, Nat.add_zero]

theorem timer?_of_now {now : Nat} {q : Post} (atOnce : q.request.delay = 0) : q.timer? now = none := by
  unfold timer?
  split
  · rename_i name delay request
    rw [request] at atOnce
    cases atOnce
  · rfl

theorem timer?_of_delay {q : Post} (delayed : q.request.delay ≠ 0) : ∃ name,
    q.event = .switched name ∧ ∀ now, q.timer? now = some ⟨name, q.due, q.state now⟩ := by
  obtain ⟨request, time, dropped⟩ := q
  cases request with
  | switchPanel name delay =>
    obtain ⟨delay, rfl⟩ := Nat.exists_eq_succ_of_ne_zero delayed
    exact ⟨name, rfl, fun _ => rfl⟩
  | openExternal uri => exact absurd rfl delayed
  | clearPanel => exact absurd rfl delayed

theorem map_reach_timer? {now time : Nat} (later : now ≤ time) (q : Post) :
    (q.timer? now).map (·.reach time) = q.timer? time := by
  by_cases atOnce : q.request.delay = 0
  · rw [timer?_of_now atOnce, timer?_of_now atOnce]
    rfl
  · obtain ⟨name, -, timer⟩ := timer?_of_delay atOnce
    rw [timer, timer, Option.map_some, Timer.reach, Timer.isDueAt, Timer.isPending, state, state]
    cases q.dropped with
    | true => rfl
    | false =>
      by_cases early : q.due ≤ now
      · simp [early, early.trans later]
      · by_cases soon : q.due ≤ time
        · simp [early, soon]
        · simp [early, soon]

/-- Among the timers that a time makes fire is that of a delayed request which is told until then. -/
theorem filter_isDueAt_timer? {now time : Nat} {q : Post} (past : q.time ≤ now) :
    ((q.timer? now).toList.filter (·.isDueAt time)).map (fun t => (PanelEvent.switched t.name, t.due)) =
      if isTold time q && decide (now < q.due) then [(q.event, q.due)] else [] := by
  by_cases atOnce : q.request.delay = 0
  · have early : ¬ now < q.due := by
      rw [due, atOnce]
      omega
    simp [timer?_of_now atOnce, early]
  · obtain ⟨name, event, timer⟩ := timer?_of_delay atOnce
    rw [timer, event, isTold]
    cases dropped : q.dropped with
    | true => simp [Timer.isDueAt, Timer.isPending, state, dropped]
    | false =>
      by_cases early : q.due ≤ now
      · simp [Timer.isDueAt, Timer.isPending, state, dropped, early, Nat.not_lt.mpr early]
      · by_cases soon : q.due ≤ time
        · simp [Timer.isDueAt, Timer.isPending, state, dropped, early, soon, Nat.lt_of_not_le early]
        · simp [Timer.isDueAt, Timer.isPending, state, dropped, early, soon]

/-! ### What has been told -/

theorem told_append_of_told {now : Nat} (posts : List Post) {q : Post} (last : q.due = now)
    (kept : q.dropped = false) : told now (posts ++ [q]) = told now posts ++ [q.event] := by
  have new : [q].filter (isTold now) = [q] := by simp [isTold, kept, last]
  have before : ∀ b ∈ posts.filter (isTold now), b.due ≤ q.due := by
    intro b member
    have told := (List.mem_filter.mp member).2
    simp only [isTold, Bool.and_eq_true, decide_eq_true_eq] at told
    exact last ▸ told.2
  rw [told, List.filter_append, new, inOrder_middle before (List.forall_mem_nil _), List.append_nil, List.map_append]
  rfl

theorem told_append_of_untold {now : Nat} (posts : List Post) {q : Post} (late : now < q.due) :
    told now (posts ++ [q]) = told now posts := by
  have new : [q].filter (isTold now) = [] := by simp [isTold, late]
  rw [told, List.filter_append, new, List.append_nil, ← told]

/-- As time passes, the panel is told of what falls due. -/
theorem told_later {now time : Nat} (later : now ≤ time) (posts : List Post) :
    told time posts = told now posts ++
      (inOrder due (posts.filter fun q => isTold time q && decide (now < q.due))).map event := by
  have early : (posts.filter (isTold time)).filter (·.due ≤ now) = posts.filter (isTold now) := by
    rw [List.filter_filter]
    apply List.filter_congr
    intro q _
    rw [isTold, isTold]
    by_cases soon : q.due ≤ now
    · simp [soon, soon.trans later]
    · simp [soon]
  have late : (posts.filter (isTold time)).filter (now < ·.due) =
      posts.filter fun q => isTold time q && decide (now < q.due) := by
    rw [List.filter_filter]
    exact List.filter_congr fun q _ => Bool.and_comm _ _
  rw [told, inOrder_cut now, early, late, List.map_append, ← told]

/-! ### Calling off -/

theorem time_drop (now : Nat) (q : Post) : (q.drop now).time = q.time := by
  rw [drop]
  split <;> rfl

theorem drop_of_told {now : Nat} {q : Post} (told : isTold now q = true) : q.drop now = q := by
  simp only [isTold, Bool.and_eq_true, decide_eq_true_eq] at told
  exact if_neg (Nat.not_lt.mpr told.2)

theorem isTold_drop (now : Nat) (q : Post) : isTold now (q.drop now) = isTold now q := by
  by_cases late : now < q.due
  · simp [drop, isTold, late]
  · rw [drop, if_neg late]

theorem timer?_drop (now : Nat) (q : Post) : (q.drop now).timer? now = (q.timer? now).map Timer.abort := by
  obtain ⟨request, time, dropped⟩ := q
  match request with
  | .switchPanel name 0 =>
    rw [drop]
    split <;> rfl
  | .switchPanel name (delay + 1) =>
    by_cases late : now < due ⟨.switchPanel name (delay + 1), time, dropped⟩
    · rw [drop, if_pos late]
      cases dropped with
      | true => rfl
      | false => simp [timer?, state, Timer.abort, Timer.isPending, late]
    · rw [drop, if_neg late]
      cases dropped with
      | true => rfl
      | false => simp [timer?, state, Timer.abort, Timer.isPending, Nat.not_lt.mp late]
  | .openExternal uri =>
    rw [drop]
    split <;> rfl
  | .clearPanel =>
    rw [drop]
    split <;> rfl

theorem map_time_callOff (now n : Nat) (posts : List Post) :
    (callOff now n posts).map time = posts.map time := by
  induction posts generalizing n with
  | nil => rfl
  | cons q rest ih =>
    rw [callOff]
    split
    · rw [List.map_cons, ih, List.map_cons]
    · split
      · rw [List.map_cons, time_drop, List.map_cons]
      · rw [List.map_cons, ih, List.map_cons]

theorem told_callOff (now n : Nat) (posts : List Post) : told now (callOff now n posts) = told now posts := by
  have kept : (callOff now n posts).filter (isTold now) = posts.filter (isTold now) := by
    induction posts generalizing n with
    | nil => rfl
    | cons q rest ih =>
      rw [callOff]
      split
      · rw [List.filter_cons, ih, List.filter_cons]
      · split
        · rw [List.filter_cons, isTold_drop, List.filter_cons]
          split
          · rename_i told
            rw [drop_of_told told]
          · rfl
        · rw [List.filter_cons, ih, List.filter_cons]
  rw [told, kept, ← told]

theorem timers_callOff (now n : Nat) (posts : List Post) :
    (callOff now n posts).filterMap (timer? now) = (posts.filterMap (timer? now)).modify n Timer.abort := by
  induction posts generalizing n with
  | nil => simp [callOff]
  | cons q rest ih =>
    rw [callOff]
    split
    · rename_i atOnce
      rw [List.filterMap_cons_none (timer?_of_now atOnce), List.filterMap_cons_none (timer?_of_now atOnce), ih]
    · rename_i delayed
      obtain ⟨name, -, timer⟩ := timer?_of_delay delayed
      split
      · rename_i zero
        have off := timer?_drop now q
        rw [timer, Option.map_some] at off
        rw [List.filterMap_cons_some (timer now), List.filterMap_cons_some off, zero, List.modify_zero_cons]
      · rename_i more
        rw [List.filterMap_cons_some (timer now), List.filterMap_cons_some (timer now), ih, List.modify_cons, if_neg more]

end Post

namespace PanelTimers

structure Matches (p : PanelTimers) (posts : List Post) : Prop where
  isOpen : p.isOpen = true
  past : ∀ time ∈ posts.map Post.time, time ≤ p.now
  ordered : (posts.map Post.time).Pairwise (· ≤ ·)
  timers : p.timers = posts.filterMap (Post.timer? p.now)
  inbox : p.inbox = Post.told p.now posts

theorem matches_empty : empty.Matches [] := ⟨rfl, List.forall_mem_nil _, .nil, rfl, rfl⟩

variable {p : PanelTimers} {posts : List Post}

theorem dispatch_at_once {r : HostRequest} (atOnce : r.delay = 0) : p.dispatch r = (none, p.tell [r.event]) := by
  cases r with
  | openExternal uri => rfl
  | clearPanel => rfl
  | switchPanel name delay =>
    obtain rfl : delay = 0 := atOnce
    rfl

theorem dispatch_delayed {r : HostRequest} (delayed : r.delay ≠ 0) : p.dispatch r =
    (some p.timers.length, { p with timers := p.timers ++ [(⟨r, p.now, false⟩ : Post)].filterMap (·.timer? p.now) }) := by
  cases r with
  | openExternal uri => exact absurd rfl delayed
  | clearPanel => exact absurd rfl delayed
  | switchPanel name delay =>
    obtain ⟨delay, rfl⟩ := Nat.exists_eq_succ_of_ne_zero delayed
    have late : ¬ Post.due ⟨.switchPanel name (delay + 1), p.now, false⟩ ≤ p.now :=
      Nat.not_le.mpr (Nat.lt_add_of_pos_right delay.succ_pos)
    simp only [PanelTimers.dispatch, List.filterMap_cons, List.filterMap_nil, Post.timer?, Post.state, late]
    rfl

theorem Matches.map_dueAt (h : p.Matches posts) (time : Nat) :
    (p.dueAt time).map (fun t => PanelEvent.switched t.name) =
      (inOrder Post.due (posts.filter fun q => q.isTold time && decide (p.now < q.due))).map Post.event := by
  -- sorted by time, the events of the timers and of the requests are the same pairs of event and time
  have pairs : (p.timers.filter (·.isDueAt time)).map (fun t => (PanelEvent.switched t.name, t.due)) =
      (posts.filter fun q => q.isTold time && decide (p.now < q.due)).map fun q => (q.event, q.due) := by
    have past := h.past
    rw [h.timers]
    generalize posts = requests at past
    induction requests with
    | nil => rfl
    | cons q rest ih =>
      obtain ⟨first, past⟩ := List.forall_mem_cons.mp past
      have parts : (q :: rest).filterMap (Post.timer? p.now) =
          (q.timer? p.now).toList ++ rest.filterMap (Post.timer? p.now) := by
        cases timer : q.timer? p.now <;> simp [timer]
      rw [parts, List.filter_append, List.map_append, Post.filter_isDueAt_timer? first, ih past, List.filter_cons]
      split <;> rfl
  have sorted := congrArg (fun l => (inOrder Prod.snd l).map Prod.fst) pairs
  simp only [← map_inOrder Timer.due Prod.snd (fun t => (PanelEvent.switched t.name, t.due)) (fun _ => rfl),
    ← map_inOrder Post.due Prod.snd (fun q => (q.event, q.due)) (fun _ => rfl), List.map_map] at sorted
  rw [dueAt, mergeSort_eq_inOrder]
  exact sorted

theorem Matches.dispatch (h : p.Matches posts) (r : HostRequest) :
    (p.dispatch r).2.Matches (posts ++ [⟨r, p.now, false⟩]) := by
  have past : ∀ time ∈ (posts ++ [(⟨r, p.now, false⟩ : Post)]).map Post.time, time ≤ p.now := by
    rw [List.map_append, List.forall_mem_append]
    exact ⟨h.past, List.forall_mem_singleton.mpr le_rfl⟩
  have ordered : ((posts ++ [(⟨r, p.now, false⟩ : Post)]).map Post.time).Pairwise (· ≤ ·) := by
    rw [List.map_append, List.pairwise_append]
    exact ⟨h.ordered, List.pairwise_singleton _ _, fun time member _ new => List.mem_singleton.mp new ▸ h.past time member⟩
  by_cases atOnce : r.delay = 0
  · rw [dispatch_at_once atOnce]
    have now : (p.tell [r.event]).now = p.now := now_tell p _
    refine ⟨?_, now ▸ past, ordered, ?_, ?_⟩
    · rw [tell, if_pos h.isOpen]
      exact h.isOpen
    · rw [timers_tell, now, List.filterMap_append, h.timers, List.filterMap_cons_none (Post.timer?_of_now atOnce)]
      exact (List.append_nil _).symm
    · have last : Post.due ⟨r, p.now, false⟩ = p.now := by
        rw [Post.due, atOnce, Nat.add_zero]
      rw [inbox_tell h.isOpen, now, h.inbox, Post.told_append_of_told posts last rfl]
      rfl
  · rw [dispatch_delayed atOnce]
    refine ⟨h.isOpen, past, ordered, ?_, ?_⟩
    · rw [List.filterMap_append, ← h.timers]
    · have late : p.now < Post.due ⟨r, p.now, false⟩ := Nat.lt_add_of_pos_right (Nat.pos_of_ne_zero atOnce)
      exact h.inbox.trans (Post.told_append_of_untold posts late).symm

theorem Matches.advance (h : p.Matches posts) (ms : Nat) : (p.advance ms).Matches posts := by
  have later : p.now ≤ p.now + ms := Nat.le_add_right p.now ms
  refine ⟨?_, fun time member => (h.past time member).trans later, h.ordered, ?_, ?_⟩
  · rw [PanelTimers.advance, tell, if_pos h.isOpen]
    exact h.isOpen
  · rw [PanelTimers.advance, h.timers, List.map_filterMap]
    exact List.filterMap_congr fun q _ => Post.map_reach_timer? later q
  · show (p.tell _).inbox = Post.told (p.now + ms) posts
    rw [inbox_tell h.isOpen, h.inbox, h.map_dueAt, Post.told_later later]

theorem Matches.abort (h : p.Matches posts) (handle : Nat) :
    (p.abort handle).Matches (Post.callOff p.now handle posts) := by
  have times := Post.map_time_callOff p.now handle posts
  refine ⟨h.isOpen, times ▸ h.past, times ▸ h.ordered, ?_, ?_⟩
  · rw [PanelTimers.abort, h.timers]
    exact (Post.timers_callOff p.now handle posts).symm
  · rw [PanelTimers.abort, h.inbox]
    exact (Post.told_callOff p.now handle posts).symm

end PanelTimers

end PortfolioShell
