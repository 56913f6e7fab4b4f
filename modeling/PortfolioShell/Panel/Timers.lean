import PortfolioShell.Shell.HostRequest

/-! # Panel timers

The side panel is told of what the shell asks for. A request reaches it at once, but a switch to a section
may have a delay: then a timer is set, which tells the panel when it is due. A timer is known by its
position among all timers that were ever set. -/

namespace PortfolioShell

inductive PanelEvent where
  | openExternal (uri : String)
  | switched (name : String)
  | cleared
  deriving DecidableEq, Repr

inductive TimerState where
  | pending
  | fired
  | aborted
  deriving DecidableEq, Repr

structure Timer where
  name : String
  due : Nat
  state : TimerState
  deriving DecidableEq, Repr

namespace Timer

def isPending (t : Timer) : Bool := t.state = .pending

def isDueAt (t : Timer) (time : Nat) : Bool := t.isPending && t.due ≤ time

def reach (t : Timer) (time : Nat) : Timer := if t.isDueAt time then { t with state := .fired } else t

/-- The timer after it has been called off; one that has fired stays as it is. -/
def abort (t : Timer) : Timer := if t.isPending then { t with state := .aborted } else t

end Timer

structure PanelTimers where
  now : Nat
  timers : List Timer
  inbox : List PanelEvent
  isOpen : Bool
  deriving DecidableEq, Repr

namespace PanelTimers

def empty : PanelTimers := ⟨0, [], [], true⟩

def tell (p : PanelTimers) (events : List PanelEvent) : PanelTimers :=
  if p.isOpen then { p with inbox := p.inbox ++ events } else p

theorem timers_tell (p : PanelTimers) (events : List PanelEvent) : (p.tell events).timers = p.timers := by
  rw [tell]
  split <;> rfl

theorem now_tell (p : PanelTimers) (events : List PanelEvent) : (p.tell events).now = p.now := by
  rw [tell]
  split <;> rfl

theorem inbox_tell {p : PanelTimers} (h : p.isOpen = true) (events : List PanelEvent) :
    (p.tell events).inbox = p.inbox ++ events := by
  rw [tell, if_pos h]

/-- Passes a request on: at once, or by a timer whose number is given. -/
def dispatch (p : PanelTimers) : HostRequest → Option Nat × PanelTimers
  | .openExternal uri => (none, p.tell [.openExternal uri])
  | .clearPanel => (none, p.tell [.cleared])
  | .switchPanel name 0 => (none, p.tell [.switched name])
  | .switchPanel name delay =>
    (some p.timers.length, { p with timers := p.timers ++ [⟨name, p.now + delay, .pending⟩] })

/-- The timers that fire until a time, in the order in which they are due. Which of two timers fires first that are due
at the same moment is left open; here it is the one that was set first. -/
def dueAt (p : PanelTimers) (time : Nat) : List Timer :=
  (p.timers.filter (·.isDueAt time)).mergeSort fun t u => t.due ≤ u.due

def advance (p : PanelTimers) (ms : Nat) : PanelTimers :=
  let time := p.now + ms
  { p.tell ((p.dueAt time).map fun t => .switched t.name) with
    now := time, timers := p.timers.map (·.reach time) }

def abort (p : PanelTimers) (handle : Nat) : PanelTimers :=
  { p with timers := p.timers.modify handle Timer.abort }

def isFinished (p : PanelTimers) (handle : Nat) : Bool := !p.timers[handle]?.any Timer.isPending

def receive (p : PanelTimers) : List PanelEvent × PanelTimers := (p.inbox, { p with inbox := [] })

def close (p : PanelTimers) : PanelTimers := { p with inbox := [], isOpen := false }

def remaining (p : PanelTimers) : Nat :=
  ((p.timers.filter Timer.isPending).map (·.due - p.now)).foldl max 0

end PanelTimers

end PortfolioShell
