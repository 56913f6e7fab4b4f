import PortfolioShell.Proofs.Panel.Deliveries
import PortfolioShell.Proofs.Shell.Run
import PortfolioShell.Tree.Sample

/-! # The last switch

A visit: a session whose requests are passed on to the panel while time goes by. A switch to a section that
takes effect at once does not call off a delayed one, so it does not prevail when an earlier switch is still
to come. When no timer is pending any more, the panel has ended with the switch that prevails, in whatever order
it was told of requests that fell due at the same moment, unless the prevailing switch itself is one of these. -/

namespace PortfolioShell

def PanelEvent.isSwitched (e : PanelEvent) : Bool := e matches .switched _

/-! ### Which switch prevails -/

namespace Post

def isSwitch (q : Post) : Bool := q.request matches .switchPanel ..

theorem isSwitched_event (q : Post) : q.event.isSwitched = q.isSwitch := by
  obtain ⟨request, time, dropped⟩ := q
  cases request <;> rfl

/-- Of some switches the one that the panel ends with: the last, unless the latest delayed one is due after
it, as the last one was then made without delay before the other fell due. -/
def prevailing? (switches : List Post) : Option Post :=
  match switches.getLast?, (switches.filter isDelayed).getLast? with
  | some last, some late => if last.due < late.due then some late else some last
  | last, _ => last

structure Steady (delay : Nat) (posts : List Post) : Prop where
  ordered : posts.Pairwise (·.time ≤ ·.time)
  delays : ∀ q ∈ posts, q.request.delay = 0 ∨ q.request.delay = delay

variable {delay : Nat} {posts : List Post}

theorem Steady.filter (h : Steady delay posts) (p : Post → Bool) : Steady delay (posts.filter p) :=
  ⟨h.ordered.filter p, fun q member => h.delays q (List.mem_of_mem_filter member)⟩

theorem Steady.time_le_last {last : Post} (h : Steady delay posts) (ends : posts.getLast? = some last) :
    ∀ q ∈ posts, q.time ≤ last.time := by
  obtain ⟨init, rfl⟩ := List.getLast?_eq_some_iff.mp ends
  intro q member
  rcases List.mem_append.mp member with earlier | same
  · exact (List.pairwise_append.mp h.ordered).2.2 q earlier last (List.mem_singleton_self last)
  · exact (List.mem_singleton.mp same) ▸ Nat.le_refl q.time

theorem Steady.due_le {before behind : List Post} {late : Post} (h : Steady delay (before ++ late :: behind))
    (delayed : late.request.delay ≠ 0) : ∀ q ∈ before, q.due ≤ late.due := by
  intro q member
  have time : q.time ≤ late.time := (List.pairwise_append.mp h.ordered).2.2 q member late List.mem_cons_self
  have own := (h.delays late (List.mem_append_right _ List.mem_cons_self)).resolve_left delayed
  rw [due, due, own]
  rcases h.delays q (List.mem_append_left _ member) with atOnce | same
  · omega
  · omega

theorem split_of_latest {late : Post} (latest : (posts.filter isDelayed).getLast? = some late) :
    late.request.delay ≠ 0 ∧ ∃ before behind, posts = before ++ late :: behind ∧
      ∀ q ∈ behind, q.request.delay = 0 := by
  obtain ⟨others, delayed⟩ := List.getLast?_eq_some_iff.mp latest
  obtain ⟨front, back, rfl, -, one⟩ := List.filter_eq_append_iff.mp delayed
  obtain ⟨between, behind, rfl, -, isLate, none⟩ := List.filter_eq_cons_iff.mp one
  refine ⟨by simpa [isDelayed] using isLate, front ++ between, behind, by rw [List.append_assoc], ?_⟩
  intro q member
  simpa [isDelayed] using List.filter_eq_nil_iff.mp none q member

/-- No switch falls due after the one that prevails, and if that one was made without delay it was the last. -/
theorem Steady.prevails (h : Steady delay posts) {q : Post} (prevails : prevailing? posts = some q) :
    q ∈ posts ∧ (∀ r ∈ posts, r.due ≤ q.due) ∧ (q.isDelayed = false → posts.getLast? = some q) := by
  rw [prevailing?] at prevails
  cases ends : posts.getLast? with
  | none =>
    rw [ends] at prevails
    cases prevails
  | some last =>
    have member : last ∈ posts := List.mem_of_getLast? ends
    have now : ∀ r ∈ posts, r.request.delay = 0 → r.due ≤ last.due := fun r member atOnce =>
      due_of_now atOnce ▸ (h.time_le_last ends r member).trans (Nat.le_add_right _ _)
    cases latest : (posts.filter isDelayed).getLast? with
    | none =>
      have none : posts.filter isDelayed = [] := List.getLast?_eq_none_iff.mp latest
      rw [ends, latest] at prevails
      obtain rfl : last = q := Option.some.inj prevails
      refine ⟨member, fun r member => now r member ?_, fun _ => rfl⟩
      simpa [isDelayed] using List.filter_eq_nil_iff.mp none r member
    | some late =>
      obtain ⟨delayed, before, behind, parts, atOnce⟩ := split_of_latest latest
      have soon : ∀ r ∈ before, r.due ≤ late.due := (parts ▸ h).due_le delayed
      have later : ∀ r ∈ behind, r.due ≤ last.due := fun r member =>
        now r (parts ▸ List.mem_append_right _ (List.mem_cons_of_mem _ member)) (atOnce r member)
      have all : ∀ r ∈ posts, r.due ≤ late.due ∨ r.due ≤ last.due := by
        intro r member
        rw [parts] at member
        rcases List.mem_append.mp member with earlier | member
        · exact .inl (soon r earlier)
        · rcases List.mem_cons.mp member with rfl | member
          · exact .inl le_rfl
          · exact .inr (later r member)
      rw [ends, latest] at prevails
      by_cases overtakes : last.due < late.due
      · obtain rfl : late = q := Option.some.inj ((if_pos overtakes).symm.trans prevails)
        refine ⟨List.mem_of_mem_filter (List.mem_of_getLast? latest), fun r member => ?_, fun atOnce => ?_⟩
        · exact (all r member).elim id fun last => last.trans overtakes.le
        · simp [isDelayed, delayed] at atOnce
      · obtain rfl : last = q := Option.some.inj ((if_neg overtakes).symm.trans prevails)
        refine ⟨member, fun r member => ?_, fun _ => rfl⟩
        exact (all r member).elim (·.trans (Nat.not_lt.mp overtakes)) id

/-! ### In which order the panel is told -/

/-- An order in which the panel may be told of some requests: they come as they fall due, and those that are passed on
at once as they were made. When a timer is due together with another request, either may come first. -/
structure ToldAs (posts order : List Post) : Prop where
  all : order.Perm posts
  due : order.Pairwise (·.due ≤ ·.due)
  sent : order.filter (!·.isDelayed) = posts.filter (!·.isDelayed)

def MayTell (posts : List Post) (events : List PanelEvent) : Prop :=
  ∃ order, ToldAs posts order ∧ events = order.map event

/-- No timer makes it doubtful whether the switch is told last of those with its deadline: it is the only one, or all of
them are passed on at once. -/
def Unrivalled (q : Post) (posts : List Post) : Prop :=
  posts.filter (·.due = q.due) = [q] ∨ ∀ r ∈ posts, r.due = q.due → r.isDelayed = false

theorem toldAs_inOrder (ordered : posts.Pairwise (·.time ≤ ·.time)) : ToldAs posts (inOrder Post.due posts) := by
  refine ⟨List.perm_insertionSort _ posts, pairwise_inOrder posts, ?_⟩
  rw [filter_inOrder]
  refine List.Pairwise.insertionSort_eq (List.Pairwise.imp_of_mem ?_ (ordered.filter _))
  intro q r first second times
  have first : q.request.delay = 0 := by simpa [isDelayed] using (List.mem_filter.mp first).2
  have second : r.request.delay = 0 := by simpa [isDelayed] using (List.mem_filter.mp second).2
  rw [NoLater, due_of_now first, due_of_now second]
  exact times

variable {order : List Post}

theorem ToldAs.filter (told : ToldAs posts order) (p : Post → Bool) : ToldAs (posts.filter p) (order.filter p) := by
  refine ⟨told.all.filter p, told.due.filter p, ?_⟩
  rw [List.filter_comm, told.sent, List.filter_comm]

/-- Whatever the order, the last is one that is due when the prevailing switch is, and that switch if it is unrivalled. -/
theorem ToldAs.getLast? (told : ToldAs posts order) (h : Steady delay posts) {q : Post}
    (prevails : prevailing? posts = some q) :
    ∃ z ∈ posts, z.due = q.due ∧ order.getLast? = some z ∧ (q.Unrivalled posts → z = q) := by
  obtain ⟨member, latest, lastSent⟩ := h.prevails prevails
  have ordered : q ∈ order := told.all.mem_iff.mpr member
  cases ends : order.getLast? with
  | none => exact absurd (List.getLast?_eq_none_iff.mp ends) (List.ne_nil_of_mem ordered)
  | some z =>
    have known : z ∈ posts := told.all.mem_iff.mp (List.mem_of_getLast? ends)
    obtain ⟨init, rfl⟩ := List.getLast?_eq_some_iff.mp ends
    have after : q.due ≤ z.due := by
      rcases List.mem_append.mp ordered with earlier | same
      · exact (List.pairwise_append.mp told.due).2.2 q earlier z (List.mem_singleton_self z)
      · exact (List.mem_singleton.mp same) ▸ le_rfl
    have together : z.due = q.due := (latest z known).antisymm after
    refine ⟨z, known, together, rfl, ?_⟩
    rintro (only | atOnce)
    · have one : z ∈ posts.filter (·.due = q.due) := List.mem_filter.mpr ⟨known, decide_eq_true together⟩
      exact List.mem_singleton.mp (only ▸ one)
    · -- both are passed on at once, and such requests come in the order in which they were made
      have sent := told.sent
      rw [List.filter_append, List.filter_cons_of_pos (by simp [atOnce z known together])] at sent
      obtain ⟨front, made⟩ := List.getLast?_eq_some_iff.mp (lastSent (atOnce q member rfl))
      rw [made, List.filter_append, List.filter_cons_of_pos (by simp [atOnce q member rfl])] at sent
      exact (List.append_inj' sent rfl).2 |> List.singleton_inj.mp

end Post

/-! ### Visits -/

/-- A session with the panel beside it, and the requests that have been passed on from one to the other. -/
structure Visit where
  session : Session
  panel : PanelTimers
  posts : List Post

namespace Visit

inductive Move where
  | submit (line : String)
  | wait (ms : Nat)

def start (tree : ContentTree) (config : Config) : Visit := ⟨.start tree config, .empty, []⟩

def pass (v : Visit) (r : HostRequest) : Visit :=
  { v with panel := (v.panel.dispatch r).2, posts := v.posts ++ [⟨r, v.panel.now, false⟩] }

def step (v : Visit) : Move → Visit
  | .submit line =>
    (v.session.submit line).1.requests.foldl pass { v with session := (v.session.submit line).2 }
  | .wait ms => { v with panel := v.panel.advance ms }

def after (v : Visit) (moves : List Move) : Visit := moves.foldl step v

def requested (v : Visit) : List Post := v.posts.filter Post.isSwitch

def isSettled (v : Visit) : Bool := v.panel.timers.all fun t => !t.isPending

structure Sound (delay : Nat) (v : Visit) : Prop where
  matched : v.panel.Matches v.posts
  kept : ∀ q ∈ v.posts, q.dropped = false
  delays : ∀ q ∈ v.posts, q.request.delay = 0 ∨ q.request.delay = delay
  setting : v.session.config.navigationDelay.toNat = delay

variable {delay : Nat} {v : Visit}

theorem sound_start (tree : ContentTree) (config : Config) :
    (start tree config).Sound config.navigationDelay.toNat :=
  ⟨PanelTimers.matches_empty, List.forall_mem_nil _, List.forall_mem_nil _, rfl⟩

theorem Sound.pass (h : v.Sound delay) {r : HostRequest} (delays : r.delay = 0 ∨ r.delay = delay) :
    (v.pass r).Sound delay := by
  refine ⟨h.matched.dispatch r, ?_, ?_, h.setting⟩
  · exact List.forall_mem_append.mpr ⟨h.kept, List.forall_mem_singleton.mpr rfl⟩
  · exact List.forall_mem_append.mpr ⟨h.delays, List.forall_mem_singleton.mpr delays⟩

theorem Sound.passAll (h : v.Sound delay) {requests : List HostRequest}
    (delays : ∀ r ∈ requests, r.delay = 0 ∨ r.delay = delay) : (requests.foldl Visit.pass v).Sound delay := by
  induction requests generalizing v with
  | nil => exact h
  | cons r rest ih =>
    obtain ⟨first, delays⟩ := List.forall_mem_cons.mp delays
    exact ih (h.pass first) delays

theorem delay_of_requests {s : Session} {command : CommandLine} {e : Effect} (done : s.Achieves command e) :
    ∀ r ∈ e.requests, r.delay = 0 ∨ r.delay = s.config.navigationDelay.toNat := by
  cases done with
  | shows verb plain => exact List.forall_mem_nil _
  | wipes verb => exact List.forall_mem_singleton.mpr (.inl rfl)
  | opens verb found => exact List.forall_mem_singleton.mpr (.inl rfl)
  | visits verb named listed => exact List.forall_mem_singleton.mpr (.inl rfl)
  | moves verb passes =>
    show ∀ r ∈ s.followRequests _, _
    unfold Session.followRequests
    split
    · exact List.forall_mem_singleton.mpr (.inr rfl)
    · exact List.forall_mem_nil _

theorem delay_of_submit (s : Session) (line : String) :
    ∀ r ∈ (s.submit line).1.requests, r.delay = 0 ∨ r.delay = s.config.navigationDelay.toNat := by
  rcases s.requests_submit line with none | ⟨command, e, done, requests⟩
  · rw [none]
    exact List.forall_mem_nil _
  · rw [requests]
    have made := delay_of_requests done
    exact made

theorem Sound.step (h : v.Sound delay) (move : Move) : (v.step move).Sound delay := by
  cases move with
  | wait ms => exact ⟨h.matched.advance ms, h.kept, h.delays, h.setting⟩
  | submit line =>
    have setting : (v.session.submit line).2.config.navigationDelay.toNat = delay := by
      rw [Session.config_submit, h.setting]
    have delays := delay_of_submit v.session line
    rw [h.setting] at delays
    rw [Visit.step]
    -- whatever the session has answered, the panel follows the requests
    generalize v.session.submit line = answer at setting delays ⊢
    have entered : Sound delay { v with session := answer.2 } := ⟨h.matched, h.kept, h.delays, setting⟩
    exact entered.passAll delays

theorem sound_after (tree : ContentTree) (config : Config) (moves : List Move) :
    ((start tree config).after moves).Sound config.navigationDelay.toNat := by
  have kept : ∀ v : Visit, v.Sound config.navigationDelay.toNat →
      (v.after moves).Sound config.navigationDelay.toNat := by
    induction moves with
    | nil => exact fun v h => h
    | cons move rest ih => exact fun v h => ih _ (h.step move)
  exact kept _ (sound_start tree config)

/-- When all timers have fired, the panel has been told of all requests, in the order in which they were due. -/
theorem Sound.inbox_of_settled (h : v.Sound delay) (settled : v.isSettled = true) :
    v.panel.inbox = (inOrder Post.due v.posts).map Post.event := by
  have told : ∀ q ∈ v.posts, q.isTold v.panel.now = true := by
    intro q member
    have past : q.time ≤ v.panel.now := h.matched.past q.time (List.mem_map_of_mem member)
    by_cases atOnce : q.request.delay = 0
    · simp [Post.isTold, h.kept q member, Post.due_of_now atOnce, past]
    · obtain ⟨name, -, timer⟩ := Post.timer?_of_delay atOnce
      have set : ⟨name, q.due, q.state v.panel.now⟩ ∈ v.panel.timers := by
        rw [h.matched.timers]
        exact List.mem_filterMap.mpr ⟨q, member, timer v.panel.now⟩
      have fired := List.all_eq_true.mp settled _ set
      by_cases soon : q.due ≤ v.panel.now
      · simp [Post.isTold, h.kept q member, soon]
      · simp [Timer.isPending, Post.state, h.kept q member, soon] at fired
  rw [h.matched.inbox, Post.told, List.filter_eq_self.mpr told]

/-- When all timers have fired, in whatever order the panel has been told of requests that were due at the same moment:
the last switch that it was told of fell due when the one that prevails among those requested did, and is that one unless
a timer of the same deadline makes it doubtful. -/
theorem switched_last_of_settled (tree : ContentTree) (config : Config) (moves : List Move) :
    let v := (start tree config).after moves
    v.isSettled = true → Post.MayTell v.posts v.panel.inbox ∧
      ∀ events, Post.MayTell v.posts events →
        ((events.filter PanelEvent.isSwitched).getLast? = none ↔ v.requested = []) ∧
        ∀ q, Post.prevailing? v.requested = some q →
          (∃ z ∈ v.requested, z.due = q.due ∧ (events.filter PanelEvent.isSwitched).getLast? = some z.event) ∧
          (q.Unrivalled v.requested → (events.filter PanelEvent.isSwitched).getLast? = some q.event) := by
  intro v settled
  have h : v.Sound config.navigationDelay.toNat := sound_after tree config moves
  have ordered : v.posts.Pairwise (·.time ≤ ·.time) := List.pairwise_map.mp h.matched.ordered
  have steady : Post.Steady config.navigationDelay.toNat v.requested :=
    Post.Steady.filter ⟨ordered, h.delays⟩ Post.isSwitch
  refine ⟨⟨_, Post.toldAs_inOrder ordered, h.inbox_of_settled settled⟩, ?_⟩
  rintro events ⟨order, told, rfl⟩
  have switches : (order.map Post.event).filter PanelEvent.isSwitched = (order.filter Post.isSwitch).map Post.event := by
    rw [List.filter_map]
    exact congrArg (fun p => (order.filter p).map Post.event) (funext Post.isSwitched_event)
  have toldSwitches : Post.ToldAs v.requested (order.filter Post.isSwitch) := told.filter Post.isSwitch
  rw [switches, List.getLast?_map]
  constructor
  · rw [Option.map_eq_none_iff, List.getLast?_eq_none_iff]
    exact ⟨fun none => (none ▸ toldSwitches.all).symm.eq_nil, fun none => (none ▸ toldSwitches.all).eq_nil⟩
  · intro q prevails
    obtain ⟨z, member, together, last, same⟩ := toldSwitches.getLast? steady prevails
    rw [last]
    exact ⟨⟨z, member, together, rfl⟩, fun unrivalled => congrArg (fun p : Post => some p.event) (same unrivalled)⟩

/-- Of two switches with one deadline either may come first, but the contacts are still to come. -/
theorem switched_last_of_sample_visit :
    let v := (start Sample.tree .default).after
      [.submit "cd projects", .submit "cd ../skills", .wait 100, .submit "cd ../contact", .submit "projects",
        .submit "open nothing", .wait 300]
    v.isSettled = true ∧ Post.prevailing? v.requested = some ⟨.switchPanel "contact" 300, 100, false⟩ ∧
      (v.panel.inbox.filter PanelEvent.isSwitched).getLast? = some (.switched "contact") ∧
      ∀ events, Post.MayTell v.posts events →
        (events.filter PanelEvent.isSwitched).getLast? = some (.switched "contact") := by
  intro v
  have settled : v.isSettled = true := by decide +kernel
  have prevails : Post.prevailing? v.requested = some ⟨.switchPanel "contact" 300, 100, false⟩ := by decide +kernel
  have alone : v.requested.filter (·.due = 400) = [⟨.switchPanel "contact" 300, 100, false⟩] := by decide +kernel
  obtain ⟨own, told⟩ := switched_last_of_settled Sample.tree .default _ settled
  have last (events : List PanelEvent) (may : Post.MayTell v.posts events) :
      (events.filter PanelEvent.isSwitched).getLast? = some (.switched "contact") :=
    ((told events may).2 _ prevails).2 (.inl alone)
  exact ⟨settled, prevails, last _ own, last⟩

/-- The panel does not always end with the last request: a switch without delay is overtaken by an earlier
one that falls due after it. Nor need it end with the last one of two that fall due together. -/
theorem last_request_overtaken :
    let v := (start Sample.tree .default).after [.submit "cd projects", .submit "skills", .wait 300]
    let w := (start Sample.tree .default).after [.submit "cd projects", .submit "cd ../skills", .wait 300]
    (v.isSettled = true ∧ v.requested.getLast?.map Post.event = some (.switched "skills") ∧
      (v.panel.inbox.filter PanelEvent.isSwitched).getLast? = some (.switched "projects")) ∧
    w.isSettled = true ∧ w.requested.getLast?.map Post.event = some (.switched "skills") ∧
      Post.MayTell w.posts [.switched "skills", .switched "projects"] := by
  intro v w
  have posts : w.posts = [⟨.switchPanel "projects" 300, 0, false⟩, ⟨.switchPanel "skills" 300, 0, false⟩] := by
    decide +kernel
  have either : Post.MayTell w.posts [.switched "skills", .switched "projects"] := by
    rw [posts]
    exact ⟨[⟨.switchPanel "skills" 300, 0, false⟩, ⟨.switchPanel "projects" 300, 0, false⟩],
      ⟨.swap _ _ [], by decide, by decide⟩, rfl⟩
  exact ⟨by decide +kernel, by decide +kernel, by decide +kernel, either⟩

end Visit

end PortfolioShell
