import PortfolioShell.Settings.Config
import PortfolioShell.Shell.History
import PortfolioShell.Shell.HostRequest
import PortfolioShell.Shell.OutputLog

/-! # Turns

A session, and a turn of it: the session while a command works on it. A command reads and changes the
session and makes requests, one after the other; it may fail at any point, and what it has done until then
stays done. That a command which fails has done nothing is no part of the definition. -/

namespace PortfolioShell

structure Session where
  tree : ContentTree
  config : Config
  location : Location
  history : History
  log : OutputLog

/-- What one entered line has produced: the records it has left in the log, and its requests. -/
structure Outcome where
  records : List Record
  requests : List HostRequest

def Outcome.hasDiagnostic (o : Outcome) : Bool := o.records.any (·.payload.isDiagnostic)

structure Turn where
  session : Session
  requests : List HostRequest := []

/-- A piece of a command. When it fails, what has been done before stays done. -/
abbrev Work := ExceptT ShellError (StateM Turn)

namespace Work

def run {α : Type} (w : Work α) (t : Turn) : Except ShellError α × Turn := (ExceptT.run w).run t

def session : Work Session := return (← get).session

def moveTo (target : Location) : Work Unit :=
  modify fun t => { t with session.location := target }

def clearLog : Work Unit := modify fun t => { t with session.log := t.session.log.clear }

def request (r : HostRequest) : Work Unit := modify fun t => { t with requests := t.requests ++ [r] }

/-! ### What a piece of work does -/

theorem run_pure {α : Type} (a : α) (t : Turn) : Work.run (pure a) t = (.ok a, t) := rfl

theorem run_throw {α : Type} (err : ShellError) (t : Turn) :
    Work.run (throw err : Work α) t = (.error err, t) := rfl

theorem run_bind {α β : Type} (w : Work α) (f : α → Work β) (t : Turn) :
    Work.run (w >>= f) t = match Work.run w t with
      | (.ok a, after) => Work.run (f a) after
      | (.error err, after) => (.error err, after) := by
  unfold run ExceptT.run StateT.run
  simp only [bind, ExceptT.bind, ExceptT.mk, StateT.bind, ExceptT.bindCont]
  cases w t with
  | mk result after => cases result <;> rfl

theorem run_session (t : Turn) : Work.session.run t = (.ok t.session, t) := rfl

theorem run_moveTo (target : Location) (t : Turn) :
    (moveTo target).run t = (.ok (), { t with session.location := target }) := rfl

theorem run_clearLog (t : Turn) :
    clearLog.run t = (.ok (), { t with session.log := t.session.log.clear }) := rfl

theorem run_request (r : HostRequest) (t : Turn) :
    (request r).run t = (.ok (), { t with requests := t.requests ++ [r] }) := rfl

end Work

end PortfolioShell
