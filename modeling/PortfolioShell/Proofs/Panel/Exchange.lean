import PortfolioShell.Proofs.Panel.Deliveries

/-! # What a panel receives

A panel may be given requests, be left alone for a while, have timers called off and be read, in any order. A
book is kept of it: the time, what has been read, and each request with the handle that was given for it.
By `deliveries_of_run` the book says what has arrived: every request without delay, and every delayed one that
has fallen due and was not called off before, each exactly once and in the order in which they are due. -/

namespace PortfolioShell

namespace PanelTimers

/-! ### What has been read before -/

/-- The panel as if these events, which were read, were still waiting. -/
def unread (p : PanelTimers) (events : List PanelEvent) : PanelTimers := { p with inbox := events ++ p.inbox }

variable (p : PanelTimers) (events : List PanelEvent)

theorem tell_unread (later : List PanelEvent) : (p.unread events).tell later = (p.tell later).unread events := by
  unfold tell unread
  split
  · rw [List.append_assoc]
  · rfl

theorem dispatch_unread (r : HostRequest) :
    (p.unread events).dispatch r = ((p.dispatch r).1, (p.dispatch r).2.unread events) := by
  match r with
  | .openExternal uri => exact congrArg (Prod.mk none) (p.tell_unread events [.openExternal uri])
  | .clearPanel => exact congrArg (Prod.mk none) (p.tell_unread events [.cleared])
  | .switchPanel name 0 => exact congrArg (Prod.mk none) (p.tell_unread events [.switched name])
  | .switchPanel name (delay + 1) => rfl

theorem advance_unread (ms : Nat) : (p.unread events).advance ms = (p.advance ms).unread events := by
  have told := p.tell_unread events ((p.dueAt (p.now + ms)).map fun t => .switched t.name)
  show { (p.unread events).tell ((p.dueAt (p.now + ms)).map fun t => .switched t.name) with
    now := p.now + ms, timers := p.timers.map fun t => t.reach (p.now + ms) : PanelTimers } = _
  rw [told]
  rfl

theorem receive_unread : p.receive.2.unread (events ++ p.receive.1) = p.unread events := by
  simp [receive, unread]

end PanelTimers

/-- A panel and the book that is kept of it. -/
structure Exchange where
  panel : PanelTimers
  clock : Nat
  received : List PanelEvent
  /-- The requests that were passed on, each with the handle that was given for it. -/
  entries : List (Option Nat × Post)

namespace Exchange

inductive Move where
  | dispatch (r : HostRequest)
  | wait (ms : Nat)
  | abort (handle : Nat)
  | receive

def empty : Exchange := ⟨.empty, 0, [], []⟩

def callOff (now handle : Nat) (entry : Option Nat × Post) : Option Nat × Post :=
  if entry.1 = some handle then (entry.1, entry.2.drop now) else entry

def step (e : Exchange) : Move → Exchange
  | .dispatch r => { e with
      panel := (e.panel.dispatch r).2, entries := e.entries ++ [((e.panel.dispatch r).1, ⟨r, e.clock, false⟩)] }
  | .wait ms => { e with panel := e.panel.advance ms, clock := e.clock + ms }
  | .abort handle => { e with panel := e.panel.abort handle, entries := e.entries.map (callOff e.clock handle) }
  | .receive => { e with panel := e.panel.receive.2, received := e.received ++ e.panel.receive.1 }

def after (moves : List Move) : Exchange := moves.foldl step empty

def posts (e : Exchange) : List Post := e.entries.map Prod.snd

/-- All that the panel has been told, whether it has been read or not. -/
def events (e : Exchange) : List PanelEvent := e.received ++ e.panel.inbox

/-! ### Handles -/

/-- Entries whose handles count the delayed requests. -/
inductive Numbered : Nat → List (Option Nat × Post) → Prop where
  | nil (n : Nat) : Numbered n []
  | atOnce {n : Nat} {q : Post} {rest : List (Option Nat × Post)} (now : q.isDelayed = false)
      (kept : q.dropped = false) (behind : Numbered n rest) : Numbered n ((none, q) :: rest)
  | delayed {n : Nat} {q : Post} {rest : List (Option Nat × Post)} (late : q.isDelayed = true)
      (behind : Numbered (n + 1) rest) : Numbered n ((some n, q) :: rest)

variable {n now handle : Nat} {entries : List (Option Nat × Post)}

theorem isDelayed_eq_false {q : Post} : q.isDelayed = false ↔ q.request.delay = 0 := by simp [Post.isDelayed]

theorem isDelayed_drop (now : Nat) (q : Post) : (q.drop now).isDelayed = q.isDelayed := by
  rw [Post.drop]
  split <;> rfl

theorem Numbered.le_of_mem (numbered : Numbered n entries) :
    ∀ handle ∈ entries.filterMap Prod.fst, n ≤ handle := by
  induction numbered with
  | nil n => exact List.forall_mem_nil _
  | atOnce now kept behind ih => exact ih
  | delayed late behind ih =>
    exact List.forall_mem_cons.mpr ⟨le_rfl, fun handle member => Nat.le_of_succ_le (ih handle member)⟩

theorem Numbered.nodup (numbered : Numbered n entries) : (entries.filterMap Prod.fst).Nodup := by
  induction numbered with
  | nil n => exact .nil
  | atOnce now kept behind ih => exact ih
  | delayed late behind ih =>
    exact List.nodup_cons.mpr ⟨fun member => Nat.not_succ_le_self _ (behind.le_of_mem _ member), ih⟩

theorem Numbered.isSome_eq_isDelayed (numbered : Numbered n entries) :
    ∀ entry ∈ entries, entry.1.isSome = entry.2.isDelayed := by
  induction numbered with
  | nil n => exact List.forall_mem_nil _
  | atOnce now kept behind ih => exact List.forall_mem_cons.mpr ⟨now.symm, ih⟩
  | delayed late behind ih => exact List.forall_mem_cons.mpr ⟨late.symm, ih⟩

/-- Only delayed requests are ever called off. -/
theorem Numbered.isDelayed_of_dropped (numbered : Numbered n entries) :
    ∀ q ∈ entries.map Prod.snd, q.dropped = true → q.isDelayed = true := by
  induction numbered with
  | nil n => exact List.forall_mem_nil _
  | atOnce now kept behind ih => exact List.forall_mem_cons.mpr ⟨fun dropped => by simp [kept] at dropped, ih⟩
  | delayed late behind ih => exact List.forall_mem_cons.mpr ⟨fun _ => late, ih⟩

theorem Numbered.concat_atOnce (numbered : Numbered n entries) {q : Post} (now : q.isDelayed = false)
    (kept : q.dropped = false) : Numbered n (entries ++ [(none, q)]) := by
  induction numbered with
  | nil n => exact .atOnce now kept (.nil n)
  | atOnce first unbroken behind ih => exact .atOnce first unbroken ih
  | delayed first behind ih => exact .delayed first ih

theorem Numbered.concat_delayed (numbered : Numbered n entries) {q : Post} (late : q.isDelayed = true) :
    Numbered n (entries ++ [(some (n + (entries.map Prod.snd).countP Post.isDelayed), q)]) := by
  induction numbered with
  | nil n => exact .delayed late (.nil (n + 1))
  | atOnce first kept behind ih =>
    rw [List.map_cons, List.countP_cons_of_neg (by simp [first])]
    exact .atOnce first kept ih
  | delayed first behind ih =>
    rw [List.map_cons, List.countP_cons_of_pos first, Nat.add_comm (List.countP _ _) 1, ← Nat.add_assoc]
    exact .delayed first ih

theorem callOff_of_ne {entry : Option Nat × Post} (other : entry.1 ≠ some handle) :
    callOff now handle entry = entry := if_neg other

theorem Numbered.map_callOff_of_lt (numbered : Numbered n entries) (below : handle < n) :
    entries.map (Exchange.callOff now handle) = entries := by
  have same : ∀ entry ∈ entries, Exchange.callOff now handle entry = id entry := by
    intro entry member
    apply callOff_of_ne
    intro own
    exact below.not_ge (numbered.le_of_mem handle (List.mem_filterMap.mpr ⟨entry, member, own⟩))
  rw [List.map_congr_left same, List.map_id]

theorem Numbered.callOff (numbered : Numbered n entries) :
    Numbered n (entries.map (Exchange.callOff now handle)) := by
  induction numbered with
  | nil n => exact .nil n
  | atOnce first kept behind ih => exact .atOnce first kept ih
  | @delayed n q rest late behind ih =>
    rw [List.map_cons, Exchange.callOff]
    split
    · exact .delayed (by rwa [isDelayed_drop]) ih
    · exact .delayed late ih

/-- A handle belongs to the delayed request that it counts. -/
theorem Numbered.posts_callOff (numbered : Numbered n entries) (now k : Nat) :
    (entries.map (Exchange.callOff now (n + k))).map Prod.snd = Post.callOff now k (entries.map Prod.snd) := by
  induction numbered generalizing k with
  | nil n => rfl
  | atOnce first kept behind ih =>
    rw [List.map_cons, List.map_cons, ih, List.map_cons, Post.callOff, if_pos (isDelayed_eq_false.mp first)]
    rfl
  | @delayed n q rest late behind ih =>
    have delayed : q.request.delay ≠ 0 := by simpa [Post.isDelayed] using late
    rw [List.map_cons, List.map_cons, List.map_cons, Post.callOff, if_neg delayed]
    cases k with
    | zero =>
      rw [Nat.add_zero, behind.map_callOff_of_lt n.lt_succ_self, if_pos rfl, Exchange.callOff, if_pos rfl]
    | succ k =>
      have other : (some n, q).1 ≠ some (n + (k + 1)) := by simp
      rw [callOff_of_ne other, if_neg k.succ_ne_zero, Nat.add_sub_cancel, ← Nat.succ_add_eq_add_succ, ih]

/-! ### The book is true -/

structure Sound (e : Exchange) : Prop where
  matched : (e.panel.unread e.received).Matches e.posts
  clock : e.panel.now = e.clock
  numbered : Numbered 0 e.entries

variable {e : Exchange}

theorem Sound.length_timers (h : e.Sound) : e.panel.timers.length = e.posts.countP Post.isDelayed := by
  have timers : e.panel.timers = e.posts.filterMap (Post.timer? e.panel.now) := h.matched.timers
  rw [timers, List.length_filterMap_eq_countP]
  refine List.countP_congr fun q _ => ?_
  by_cases now : q.isDelayed = false
  · rw [Post.timer?_of_now (isDelayed_eq_false.mp now), now]
    rfl
  · obtain ⟨name, -, timer⟩ := Post.timer?_of_delay (mt isDelayed_eq_false.mpr now)
    rw [timer, Bool.eq_true_of_not_eq_false now]
    rfl

theorem Sound.step_dispatch (h : e.Sound) (r : HostRequest) : (e.step (.dispatch r)).Sound := by
  refine ⟨?_, ?_, ?_⟩
  · have told := h.matched.dispatch r
    rw [PanelTimers.dispatch_unread] at told
    rw [posts, Exchange.step, List.map_append, ← h.clock]
    exact told
  · by_cases atOnce : r.delay = 0
    · rw [Exchange.step, PanelTimers.dispatch_at_once atOnce, ← h.clock]
      exact PanelTimers.now_tell e.panel _
    · rw [Exchange.step, PanelTimers.dispatch_delayed atOnce, ← h.clock]
  · by_cases atOnce : r.delay = 0
    · rw [Exchange.step, PanelTimers.dispatch_at_once atOnce]
      exact h.numbered.concat_atOnce (isDelayed_eq_false.mpr atOnce) rfl
    · have count := h.numbered.concat_delayed (q := ⟨r, e.clock, false⟩) (by simpa [Post.isDelayed] using atOnce)
      rw [Nat.zero_add, ← posts, ← h.length_timers] at count
      rw [Exchange.step, PanelTimers.dispatch_delayed atOnce]
      exact count

theorem Sound.step_wait (h : e.Sound) (ms : Nat) : (e.step (.wait ms)).Sound := by
  refine ⟨?_, congrArg (· + ms) h.clock, h.numbered⟩
  have told := h.matched.advance ms
  rw [PanelTimers.advance_unread] at told
  exact told

theorem Sound.step_abort (h : e.Sound) (handle : Nat) : (e.step (.abort handle)).Sound := by
  refine ⟨?_, h.clock, h.numbered.callOff⟩
  have told := h.matched.abort handle
  have posts := h.numbered.posts_callOff e.clock handle
  rw [Nat.zero_add] at posts
  rw [Exchange.posts, Exchange.step, posts, ← h.clock]
  exact told

theorem Sound.step_receive (h : e.Sound) : (e.step .receive).Sound := by
  refine ⟨?_, h.clock, h.numbered⟩
  rw [Exchange.step, PanelTimers.receive_unread]
  exact h.matched

theorem Sound.step (h : e.Sound) (move : Move) : (e.step move).Sound := by
  cases move with
  | dispatch r => exact h.step_dispatch r
  | wait ms => exact h.step_wait ms
  | abort handle => exact h.step_abort handle
  | receive => exact h.step_receive

theorem sound_after (moves : List Move) : (after moves).Sound := by
  have run (e : Exchange) (h : e.Sound) : (moves.foldl Exchange.step e).Sound := by
    induction moves generalizing e with
    | nil => exact h
    | cons move rest ih => exact ih (e.step move) (h.step move)
  exact run empty ⟨PanelTimers.matches_empty, rfl, .nil 0⟩

/-! ### Deliveries -/

def told (e : Exchange) : List Post := inOrder Post.due (e.posts.filter (Post.isTold e.clock))

theorem Sound.events_eq (h : e.Sound) : e.events = e.told.map Post.event := by
  rw [told, ← h.clock]
  exact h.matched.inbox

theorem Sound.ordered (h : e.Sound) : e.posts.Pairwise (·.time ≤ ·.time) := List.pairwise_map.mp h.matched.ordered

theorem Sound.isTold_at_once (h : e.Sound) {q : Post} (member : q ∈ e.posts) (now : q.isDelayed = false) :
    q.isTold e.clock = true := by
  have kept : q.dropped = false := by
    by_contra dropped
    have late := h.numbered.isDelayed_of_dropped q member (Bool.eq_true_of_not_eq_false dropped)
    exact Bool.noConfusion (now.symm.trans late)
  have past : q.time ≤ e.clock := h.clock ▸ h.matched.past q.time (List.mem_map_of_mem member)
  simp [Post.isTold, kept, Post.due_of_now (isDelayed_eq_false.mp now), past]

/-- Requests without delay are due in the order in which they were passed on, so sorting leaves them as they are. -/
theorem Sound.told_at_once (h : e.Sound) :
    (e.told.filter fun q => !q.isDelayed) = e.posts.filter fun q => !q.isDelayed := by
  have all : (e.posts.filter (Post.isTold e.clock)).filter (fun q => !q.isDelayed) =
      e.posts.filter fun q => !q.isDelayed := by
    rw [List.filter_filter]
    refine List.filter_congr fun q member => ?_
    cases now : q.isDelayed with
    | true => rfl
    | false => exact h.isTold_at_once member now
  have due {q : Post} (member : q ∈ e.posts.filter fun q => !q.isDelayed) : q.due = q.time :=
    Post.due_of_now (isDelayed_eq_false.mp (by simpa using (List.mem_filter.mp member).2))
  rw [told, filter_inOrder, all]
  apply List.Pairwise.insertionSort_eq
  refine (h.ordered.filter _).imp_of_mem fun {a b} first second earlier => ?_
  rw [NoLater, due first, due second]
  exact earlier

theorem told_delayed (e : Exchange) : (e.told.filter Post.isDelayed).Perm
    (e.posts.filter fun q => q.isDelayed && !q.dropped && q.due ≤ e.clock) := by
  have due : (e.posts.filter (Post.isTold e.clock)).filter Post.isDelayed =
      e.posts.filter fun q => q.isDelayed && !q.dropped && q.due ≤ e.clock := by
    rw [List.filter_filter]
    exact List.filter_congr fun q _ => (Bool.and_assoc _ _ _).symm
  rw [told, filter_inOrder, due]
  exact List.perm_insertionSort _ _

theorem Sound.events_dispatch (h : e.Sound) (r : HostRequest) :
    (e.step (.dispatch r)).events = e.events ++ if r.delay = 0 then [r.event] else [] := by
  by_cases atOnce : r.delay = 0
  · have isOpen : e.panel.isOpen = true := h.matched.isOpen
    rw [Exchange.step, events, PanelTimers.dispatch_at_once atOnce, if_pos atOnce, events, List.append_assoc,
      ← PanelTimers.inbox_tell isOpen]
  · rw [Exchange.step, events, PanelTimers.dispatch_delayed atOnce, if_neg atOnce, List.append_nil]
    rfl

/-- Whatever a panel has been through, it has been told of every request without delay, in order and without a
handle, and of each delayed one that is due and was not called off in time; handles name one request each. -/
theorem deliveries_of_run (moves : List Move) :
    (∃ told : List Post, (after moves).events = told.map Post.event ∧
      (told.filter fun q => !q.isDelayed) = ((after moves).posts.filter fun q => !q.isDelayed) ∧
      (told.filter Post.isDelayed).Perm
        ((after moves).posts.filter fun q => q.isDelayed && !q.dropped && q.due ≤ (after moves).clock) ∧
      told.Pairwise (·.due ≤ ·.due)) ∧
    (∀ r, ((after moves).step (.dispatch r)).events =
      (after moves).events ++ if r.delay = 0 then [r.event] else []) ∧
    (∀ entry ∈ (after moves).entries, entry.1.isSome = entry.2.isDelayed) ∧
    ((after moves).entries.filterMap Prod.fst).Nodup := by
  have sound := sound_after moves
  refine ⟨⟨(after moves).told, sound.events_eq, sound.told_at_once, told_delayed _, pairwise_inOrder _⟩, ?_, ?_, ?_⟩
  · exact sound.events_dispatch
  · exact sound.numbered.isSome_eq_isDelayed
  · exact sound.numbered.nodup

end Exchange

end PortfolioShell
