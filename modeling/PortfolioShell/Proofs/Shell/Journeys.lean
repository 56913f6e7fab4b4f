import PortfolioShell.Proofs.Shell.Commands
import PortfolioShell.Proofs.Shell.Whereabouts
import PortfolioShell.Proofs.Tree.Routes

/-! # Journeys

Two changes of directory, one after the other, against one change along both paths with a slash between them. The
second asks only for the end of the way and never for the place between, and reads one long path where the first
reads two. Where the first change succeeds the two come to the same (`journey_in_one_change`): a change of directory
is decided by where it leads (`changes`), and the joined path leads where the second one leads from the place between
(`change?_joined`). -/

namespace PortfolioShell.Session

variable {s there : Session} {input args p q : String}

/-- Where `cd` with this argument takes the session; nowhere if there is no directory. -/
def change? (s : Session) (args : String) : Option Location :=
  if (s.destination args).isRoot || s.tree.isDirectory (s.destination args) then some (s.destination args) else none

/-- What is left of a change of directory, by where it takes the session. -/
structure Changes (s : Session) (input : String) (target : Option Location) : Prop where
  refused : (s.submit input).1.hasDiagnostic = target.isNone
  requests : (s.submit input).1.requests = target.elim [] s.followRequests
  location : (s.submit input).2.location = target.getD s.location

theorem changes (sound : s.log.WellNumbered) (said : Says input .cd args) : s.Changes input (s.change? args) := by
  rw [change?]
  split
  · rename_i passes
    obtain ⟨outcome, place⟩ := submit_change sound said passes
    refine ⟨?_, congrArg Outcome.requests outcome, place⟩
    rw [outcome, hasDiagnostic_numbered]
    rfl
  · rename_i stops
    have fails : s.effectOf args .cd = .error (.noSuchDirectory "cd" args) := by
      rw [effectOf, changeEffect, if_neg stops]
    obtain ⟨outcome, place⟩ := submit_of_effectOf_error sound said (by decide) fails
    refine ⟨?_, congrArg Outcome.requests outcome, place⟩
    rw [outcome, hasDiagnostic_numbered]
    rfl

theorem Changes.arrives {target : Option Location} (changed : s.Changes input target)
    (works : (s.submit input).1.hasDiagnostic = false) : target = some (s.submit input).2.location := by
  have goes : target.isNone = false := changed.refused.symm.trans works
  cases target with
  | none => cases goes
  | some place => rw [changed.location, Option.getD_some]

theorem change?_eq_some {target : Location} (given : args ≠ "") (goes : s.change? args = some target) :
    target = s.location.resolve args := by
  rw [change?] at goes
  split at goes
  · rw [← Option.some.inj goes, destination, if_neg given]
  · cases goes

/-- The place between is not asked for, only the end of the way. -/
theorem change?_joined (given : p ≠ "") (given' : q ≠ "") (same : there.tree = s.tree)
    (arrived : there.location = s.location.resolve p) : s.change? (p ++ "/" ++ q) = there.change? q := by
  have joined : p ++ "/" ++ q ≠ "" := by simp [given]
  have way : s.destination (p ++ "/" ++ q) = there.destination q := by
    rw [destination, destination, if_neg joined, if_neg given', arrived, Location.resolve_append]
  rw [change?, change?, way, same]

theorem says_joined (given : p ≠ "") (ends : Text.Trim p.toList) (given' : q ≠ "") (ends' : Text.Trim q.toList) :
    Says ("cd " ++ (p ++ "/" ++ q)) .cd (p ++ "/" ++ q) := by
  have front : p.toList ≠ [] := by simpa using given
  have back : q.toList ≠ [] := by simpa using given'
  have letters : (p ++ "/" ++ q).toList = p.toList ++ (['/'] ++ q.toList) := by simp
  exact says_argument .cd (by simp [given]) (letters ▸ .append front ends back ends' ['/'])

section Joined

variable (sound : s.log.WellNumbered) (given : p ≠ "") (ends : Text.Trim p.toList) (given' : q ≠ "")
  (ends' : Text.Trim q.toList) (works : (s.submit ("cd " ++ p)).1.hasDiagnostic = false)

include sound given ends given' ends' works

theorem changes_joined :
    s.Changes ("cd " ++ (p ++ "/" ++ q)) ((s.submit ("cd " ++ p)).2.change? q) := by
  have first : s.Changes ("cd " ++ p) (s.change? p) := changes sound (says_argument .cd given ends)
  have arrived : (s.submit ("cd " ++ p)).2.location = s.location.resolve p := change?_eq_some given (first.arrives works)
  rw [← change?_joined given given' (tree_submit s ("cd " ++ p)) arrived]
  exact changes sound (says_joined given ends given' ends')

end Joined

/-- In every state that a session can be in, after a change of directory that succeeds the next one comes to the same
as a single one along both paths from where the session was: they succeed or fail together and make the same requests,
and if they succeed they lead to the same place. -/
theorem journey_in_one_change (tree : ContentTree) (config : Config) (actions : List Action) (given : p ≠ "")
    (ends : Text.Trim p.toList) (given' : q ≠ "") (ends' : Text.Trim q.toList) :
    let s := (start tree config).after actions
    let there := (s.submit ("cd " ++ p)).2
    (s.submit ("cd " ++ p)).1.hasDiagnostic = false →
      let next := there.submit ("cd " ++ q)
      let joined := s.submit ("cd " ++ (p ++ "/" ++ q))
      joined.1.hasDiagnostic = next.1.hasDiagnostic ∧ joined.1.requests = next.1.requests ∧
      (next.1.hasDiagnostic = false → joined.2.location = next.2.location) := by
  intro s there works
  have sound : s.log.WellNumbered := wellNumbered_after tree config actions
  have whole : s.Changes ("cd " ++ (p ++ "/" ++ q)) (there.change? q) :=
    changes_joined sound given ends given' ends' works
  have second : there.Changes ("cd " ++ q) (there.change? q) :=
    changes (wellNumbered_submit sound ("cd " ++ p)) (says_argument .cd given' ends')
  have delay : there.followRequests = s.followRequests := by
    funext target
    rw [followRequests, followRequests, config_submit]
  refine ⟨whole.refused.trans second.refused.symm, ?_, fun goes => ?_⟩
  · rw [whole.requests, second.requests, delay]
  · rw [whole.location, second.arrives goes, Option.getD_some]

/-- The place between may lie behind a name that the tree does not have, as long as the path turns back. -/
theorem sample_journey_in_one_change :
    let s := (start Sample.tree .default).after [.submit "skills", .submit "cat nothing", .recallPrevious]
    let there := (s.submit ("cd " ++ "..//projects/an  idea/../archive")).2
    "..//projects/an  idea/../archive" ≠ "" ∧ Text.Trim "..//projects/an  idea/../archive".toList ∧
    "./../../contact/" ≠ "" ∧ Text.Trim "./../../contact/".toList ∧
    (s.submit ("cd " ++ "..//projects/an  idea/../archive")).1.hasDiagnostic = false ∧
    (there.submit ("cd " ++ "./../../contact/")).1.hasDiagnostic = false ∧
    (s.submit ("cd " ++ ("..//projects/an  idea/../archive" ++ "/" ++ "./../../contact/"))).1.requests =
      [.switchPanel "contact" 300] ∧
    (s.submit ("cd " ++ ("..//projects/an  idea/../archive" ++ "/" ++ "./../../contact/"))).2.location = ⟨["contact"]⟩ := by
  intro s there
  have given : "..//projects/an  idea/../archive" ≠ "" := by decide
  have given' : "./../../contact/" ≠ "" := by decide
  have ends : Text.Trim "..//projects/an  idea/../archive".toList := by decide
  have ends' : Text.Trim "./../../contact/".toList := by decide
  have works : (s.submit ("cd " ++ "..//projects/an  idea/../archive")).1.hasDiagnostic = false := by decide +kernel
  have next : (there.submit ("cd " ++ "./../../contact/")).1.hasDiagnostic = false ∧
      (there.submit ("cd " ++ "./../../contact/")).1.requests = [.switchPanel "contact" 300] ∧
      (there.submit ("cd " ++ "./../../contact/")).2.location = ⟨["contact"]⟩ := by decide +kernel
  obtain ⟨goes, asks, leads⟩ := next
  obtain ⟨-, requests, place⟩ := journey_in_one_change Sample.tree .default
    [.submit "skills", .submit "cat nothing", .recallPrevious] given ends given' ends' works
  exact ⟨given, ends, given', ends', works, goes, requests.trans asks, (place goes).trans leads⟩

end PortfolioShell.Session
