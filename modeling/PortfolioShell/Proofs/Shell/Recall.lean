import Mathlib.Data.List.Forall2
import PortfolioShell.Proofs.Shell.Run
import PortfolioShell.Proofs.Text.Words
import PortfolioShell.Tree.Sample

/-! # Recall

A walk through the entered lines, told by a position between 0 and their number in place of a cursor that
may be missing. `History.Follows` ties the two together. A new line, a step back and a step forth keep the
tie, so whole runs keep it, and `history_follows_walk` says what that comes to: the history holds what was
entered, its cursor stands where the walk stands, and every recall gives what the walk gives. -/

namespace PortfolioShell

/-- Lines, oldest first, and a position among them. Behind the newest line the position is their number. -/
structure Walk where
  lines : List String
  position : Nat

namespace Walk

def empty : Walk := ⟨[], 0⟩

def enter (w : Walk) (line : String) : Walk := ⟨w.lines ++ [line], w.lines.length + 1⟩

def back (w : Walk) : Option String × Walk :=
  if w.lines = [] then (none, w) else (w.lines[w.position - 1]?, { w with position := w.position - 1 })

def forth (w : Walk) : Option String × Walk :=
  (w.lines[min (w.position + 1) w.lines.length]?, { w with position := min (w.position + 1) w.lines.length })

end Walk

/-- The history stands where the walk stands; it has a cursor as long as the walk is not behind the newest
line. -/
structure History.Follows (h : History) (w : Walk) : Prop where
  entries : h.entries = w.lines
  inside : w.position ≤ w.lines.length
  cursor : h.cursor = if w.position < w.lines.length then some w.position else none

namespace History

variable {h : History} {w : Walk}

theorem follows_empty : empty.Follows .empty := ⟨rfl, Nat.le_refl 0, rfl⟩

theorem Follows.cursor_lt (follows : h.Follows w) (i : Nat) (walking : h.cursor = some i) : i < h.entries.length := by
  rw [follows.cursor] at walking
  split at walking
  · rename_i before
    obtain rfl := Option.some.inj walking
    rwa [follows.entries]
  · cases walking

theorem Follows.add (follows : h.Follows w) (line : String) : (h.add line).Follows (w.enter line) where
  entries := by rw [entries_add, follows.entries, Walk.enter]
  inside := by simp [Walk.enter]
  cursor := by simp [Walk.enter, History.add]

/-- Where a step back leads: to the newest entry if there is no cursor yet. -/
def indexBack (h : History) : Nat := h.cursor.elim (h.entries.length - 1) (· - 1)

theorem previous_of_ne_nil (filled : h.entries ≠ []) :
    h.previous = (h.entries[h.indexBack]?, { h with cursor := some h.indexBack }) := by
  rw [previous, if_neg filled, indexBack]
  cases h.cursor with
  | none => rfl
  | some i => rfl

theorem Follows.indexBack_eq (follows : h.Follows w) : h.indexBack = w.position - 1 := by
  have inside := follows.inside
  rw [indexBack, follows.cursor, follows.entries]
  by_cases before : w.position < w.lines.length
  · simp [before]
  · have behind : w.position = w.lines.length := by omega
    simp [behind]

theorem Follows.previous (follows : h.Follows w) :
    h.previous.1 = w.back.1 ∧ h.previous.2.Follows w.back.2 := by
  rw [Walk.back]
  by_cases empty : w.lines = []
  · have nothing : h.entries = [] := follows.entries.trans empty
    rw [if_pos empty, History.previous, if_pos nothing]
    exact ⟨rfl, follows⟩
  · have filled : h.entries ≠ [] := follows.entries ▸ empty
    have inside := follows.inside
    have count : 0 < w.lines.length := List.length_pos_of_ne_nil empty
    have before : w.position - 1 < w.lines.length := by omega
    rw [if_neg empty, previous_of_ne_nil filled, follows.indexBack_eq]
    constructor
    · simp only [follows.entries]
    · exact ⟨follows.entries, Nat.le_of_lt before, by simp [before]⟩

theorem Follows.next (follows : h.Follows w) :
    h.next.1 = w.forth.1 ∧ h.next.2.Follows w.forth.2 := by
  have inside := follows.inside
  have cursor := follows.cursor
  rw [History.next, Walk.forth]
  by_cases before : w.position < w.lines.length
  · rw [if_pos before] at cursor
    by_cases newest : w.position + 1 < w.lines.length
    · have target : min (w.position + 1) w.lines.length = w.position + 1 := by omega
      have goes : w.position + 1 < h.entries.length := by rwa [follows.entries]
      simp only [cursor, goes, if_true, target]
      exact ⟨by rw [follows.entries], follows.entries, Nat.le_of_lt newest, by simp [newest]⟩
    · have target : min (w.position + 1) w.lines.length = w.lines.length := by omega
      have stops : ¬ w.position + 1 < h.entries.length := by rwa [follows.entries]
      simp only [cursor, stops, if_false, target]
      exact ⟨by simp, follows.entries, Nat.le_refl _, by simp⟩
  · rw [if_neg before] at cursor
    have target : min (w.position + 1) w.lines.length = w.lines.length := by omega
    simp only [cursor, target]
    exact ⟨by simp, follows.entries, Nat.le_refl _, by simpa using cursor⟩

end History

namespace Session

open Text

def isBlankLine (line : String) : Bool := line.toList.all isBlank

/-- What the history keeps of an action. -/
def Action.entered? : Action → Option String
  | .submit line => if isBlankLine line then none else some (trimmed line)
  | _ => none

def Action.submitted? : Action → Option String
  | .submit line => some line
  | _ => none

/-- The line is the text with blanks around it, and the text has none at its ends. -/
structure Surrounds (line text : String) : Prop where
  filled : text ≠ ""
  ends : Trim text.toList
  whole : ∃ lead tail, line.toList = lead ++ text.toList ++ tail ∧
    (∀ c ∈ lead, isBlank c = true) ∧ ∀ c ∈ tail, isBlank c = true

theorem surrounds_trimmed {line : String} (said : ¬ isBlankLine line = true) : Surrounds line (trimmed line) where
  filled none := by
    have nothing : dropEnds line.toList = [] := by rw [← toList_trimmed, none]; rfl
    exact said (List.all_eq_true.mpr (dropEnds_eq_nil_iff.mp nothing))
  ends := by
    rw [toList_trimmed]
    exact trim_dropEnds line.toList
  whole := by
    rw [toList_trimmed]
    exact exists_dropEnds line.toList

/-- Each line that is not blank is entered, and nothing else. -/
theorem surrounds_entered (actions : List Action) :
    List.Forall₂ Surrounds ((actions.filterMap Action.submitted?).filter (!isBlankLine ·))
      (actions.filterMap Action.entered?) := by
  induction actions with
  | nil => exact .nil
  | cons a rest ih =>
    cases a with
    | submit line =>
      by_cases blank : isBlankLine line = true
      · simpa [Action.submitted?, Action.entered?, blank] using ih
      · simpa [Action.submitted?, Action.entered?, blank] using And.intro (surrounds_trimmed blank) ih
    | recallPrevious => exact ih
    | recallNext => exact ih
    | suggest typed => exact ih
    | quickCommands => exact ih

def Reply.recalled? : Reply → Option (Option String)
  | .recalled line => some line
  | _ => none

def replies (s : Session) : List Action → List Reply
  | [] => []
  | a :: rest => (s.act a).1 :: (s.act a).2.replies rest

end Session

namespace Walk

open Session

/-- A step of the walk, and what it recalls if it is a recall. -/
def act (w : Walk) : Action → Option (Option String) × Walk
  | .submit line => (none, if isBlankLine line then w else w.enter (Text.trimmed line))
  | .recallPrevious => (some w.back.1, w.back.2)
  | .recallNext => (some w.forth.1, w.forth.2)
  | .suggest _ | .quickCommands => (none, w)

def after (w : Walk) (actions : List Action) : Walk := actions.foldl (fun w a => (w.act a).2) w

def recalls (w : Walk) : List Action → List (Option String)
  | [] => []
  | a :: rest => (w.act a).1.toList ++ (w.act a).2.recalls rest

theorem lines_act (w : Walk) (a : Action) : (w.act a).2.lines = w.lines ++ a.entered?.toList := by
  cases a with
  | submit line => cases blank : isBlankLine line <;> simp [act, Action.entered?, enter, blank]
  | recallPrevious => by_cases empty : w.lines = [] <;> simp [act, Action.entered?, back, empty]
  | recallNext => simp [act, forth, Action.entered?]
  | suggest typed => simp [act, Action.entered?]
  | quickCommands => simp [act, Action.entered?]

theorem lines_after (w : Walk) (actions : List Action) :
    (w.after actions).lines = w.lines ++ actions.filterMap Action.entered? := by
  induction actions generalizing w with
  | nil => simp [after]
  | cons a rest ih =>
    rw [after, List.foldl_cons, ← after, ih, lines_act, List.append_assoc]
    cases entered : a.entered? <;> simp [entered]

end Walk

namespace Session

open Text

variable {s : Session} {w : Walk}

theorem isBlankLine_iff {line : String} :
    isBlankLine line = true ↔ CommandLine.parse? (trimmed line) = none := by
  rw [CommandLine.parse?_trimmed, CommandLine.parse?_eq_none_iff, isBlankLine, List.all_eq_true]

theorem history_submit (s : Session) (line : String) :
    (s.submit line).2.history = if isBlankLine line then s.history else s.history.add (trimmed line) := by
  have blank := @isBlankLine_iff line
  cases s.handling line with
  | blank nothing => rw [submit_of_blank nothing, if_pos (blank.mpr nothing)]; rfl
  | fails parsed result =>
    have said : ¬ isBlankLine line = true := by simp [blank, parsed]
    rw [submit_of_error parsed result, if_neg said]
    rfl
  | works parsed result =>
    have said : ¬ isBlankLine line = true := by simp [blank, parsed]
    rw [submit_of_ok parsed result, if_neg said]
    rfl

-- in a run a submission stands for itself and is not evaluated
attribute [local irreducible] submit

theorem follows_submit (follows : s.history.Follows w) (line : String) :
    (s.submit line).2.history.Follows (if isBlankLine line then w else w.enter (trimmed line)) := by
  rw [history_submit]
  split
  · exact follows
  · exact follows.add (trimmed line)

theorem follows_act (follows : s.history.Follows w) (a : Action) :
    (s.act a).1.recalled? = (w.act a).1 ∧ (s.act a).2.history.Follows (w.act a).2 := by
  cases a with
  | submit line => exact ⟨rfl, follows_submit follows line⟩
  | recallPrevious =>
    obtain ⟨recalled, kept⟩ := follows.previous
    exact ⟨congrArg some recalled, kept⟩
  | recallNext =>
    obtain ⟨recalled, kept⟩ := follows.next
    exact ⟨congrArg some recalled, kept⟩
  | suggest typed => exact ⟨rfl, follows⟩
  | quickCommands => exact ⟨rfl, follows⟩

theorem follows_after (follows : s.history.Follows w) (actions : List Action) :
    (s.replies actions).filterMap Reply.recalled? = w.recalls actions ∧
      (s.after actions).history.Follows (w.after actions) := by
  induction actions generalizing s w with
  | nil => exact ⟨rfl, follows⟩
  | cons a rest ih =>
    obtain ⟨recalled, kept⟩ := follows_act follows a
    obtain ⟨later, stays⟩ := ih kept
    rw [after, List.foldl_cons, ← after, Walk.after, List.foldl_cons, ← Walk.after]
    refine ⟨?_, stays⟩
    rw [replies, Walk.recalls, ← later, ← recalled, List.filterMap_cons]
    cases (s.act a).1.recalled? <;> rfl

/-- After every run the history holds the lines that were entered, blank ones aside, without the blanks at their ends
and in order. Its cursor is the position of the walk that takes the same actions, none when that position is behind the
newest line, and the recalls of the run gave what the walk gives. -/
theorem history_follows_walk (tree : ContentTree) (config : Config) (actions : List Action) :
    let history := ((start tree config).after actions).history
    let w := Walk.empty.after actions
    history.entries = actions.filterMap Action.entered? ∧
    List.Forall₂ Surrounds ((actions.filterMap Action.submitted?).filter (!isBlankLine ·)) history.entries ∧
    w.lines = history.entries ∧ w.position ≤ w.lines.length ∧
    history.cursor = (if w.position < w.lines.length then some w.position else none) ∧
    (∀ i, history.cursor = some i → i < history.entries.length) ∧
    ((start tree config).replies actions).filterMap Reply.recalled? = Walk.empty.recalls actions := by
  intro history w
  obtain ⟨recalled, follows⟩ := follows_after (s := start tree config) History.follows_empty actions
  have lines : w.lines = actions.filterMap Action.entered? := Walk.lines_after .empty actions
  have entries : history.entries = actions.filterMap Action.entered? := follows.entries.trans lines
  refine ⟨entries, ?_, follows.entries.symm, follows.inside, follows.cursor, follows.cursor_lt, recalled⟩
  rw [entries]
  exact surrounds_entered actions

/-! ### After a submission -/

theorem recalled_without_cursor (fresh : s.history.cursor = none) :
    s.recallPrevious.1 = s.history.entries.getLast? := by
  rw [recallPrevious]
  by_cases empty : s.history.entries = []
  · rw [History.previous, if_pos empty, empty]
    rfl
  · rw [History.previous_of_ne_nil empty, History.indexBack, fresh, List.getLast?_eq_getElem?]
    rfl

theorem recalled_at_cursor {i : Nat} (walking : s.history.cursor = some i) (inside : i < s.history.entries.length) :
    s.recallPrevious.1 = s.history.entries[i - 1]? := by
  have filled : s.history.entries ≠ [] := List.ne_nil_of_length_pos (Nat.zero_lt_of_lt inside)
  rw [recallPrevious, History.previous_of_ne_nil filled, History.indexBack, walking]
  rfl

/-- A submission ends the walk through the history, so that the next step back leads to the newest line, unless
the line is blank: a blank line leaves the cursor where it was, and the next step back goes on from there. -/
theorem cursor_after_submission (tree : ContentTree) (config : Config) (actions : List Action) (input : String) :
    let s := (start tree config).after actions
    let next := (s.submit input).2
    next.history.cursor = (if isBlankLine input then s.history.cursor else none) ∧
    (next.history.cursor = none → next.recallPrevious.1 = next.history.entries.getLast?) ∧
    (∀ i, next.history.cursor = some i → next.recallPrevious.1 = next.history.entries[i - 1]?) := by
  intro s next
  have history : next.history = if isBlankLine input then s.history else s.history.add (trimmed input) :=
    history_submit s input
  have follows := (follows_after (s := start tree config) History.follows_empty actions).2
  have kept := follows_submit follows input
  refine ⟨?_, recalled_without_cursor, fun i walking => recalled_at_cursor walking (kept.cursor_lt i walking)⟩
  rw [history]
  split <;> rfl

theorem blank_line_keeps_cursor :
    let s := (start Sample.tree .default).after [.submit "cd", .submit "pwd", .recallPrevious]
    let next := (s.submit "").2
    next.history.cursor ≠ none ∧ next.recallPrevious.1 ≠ next.history.entries.getLast? := by
  decide +kernel

end Session

end PortfolioShell
