import Mathlib.Data.List.Induction
import Mathlib.Logic.Function.Iterate
import PortfolioShell.Proofs.Shell.Cycling
import PortfolioShell.Proofs.Terminal.Typing
import PortfolioShell.Tree.Sample

/-! # Completing with Tab

Tab takes the place of the very line that the candidates were found for, so the line as it was before the first Tab is
remembered, and with it the candidates and the place among them. After any other key nothing is remembered
(`Desk.fresh_after`). From there on Tabs walk round the candidates of the line, one step each (`Desk.after_tabs`), and
the session does not change; by `tabs_walk_candidates` the same is seen at a prompter. -/

namespace PortfolioShell.Terminal

/-- The line is the candidate at a position, counted round, with the cursor behind it; without candidates it is the
old line, and the cursor has not moved. -/
structure InputLine.Completes (line old : InputLine) (candidates : List String) (position : Nat) : Prop where
  candidate : candidates ≠ [] → candidates[position % candidates.length]? = some line.text ∧ line.cursor = line.length
  kept : candidates = [] → line = old

-- a submission stands for itself and is not evaluated
attribute [local irreducible] Session.submit

namespace Desk

variable {d : Desk}

theorem session_replace (d : Desk) (text : Option String) : (d.replace text).session = d.session := by
  cases text <;> rfl

theorem asked_replace (d : Desk) (text : Option String) : (d.replace text).asked = d.asked := by
  cases text <;> rfl

theorem isOver_replace (d : Desk) (text : Option String) : (d.replace text).isOver = d.isOver := by
  cases text <;> rfl

theorem complete_eq (d : Desk) : d.complete =
    { d with
      cycle := (d.cycle.accept (d.session.suggest (d.seed.getD d.editor.toText))).2
      seed := some (d.seed.getD d.editor.toText) }.replace
        (d.cycle.accept (d.session.suggest (d.seed.getD d.editor.toText))).1 :=
  rfl

/-! ### Nothing is remembered -/

/-- The next Tab is the first one. -/
structure Fresh (d : Desk) : Prop where
  cycle : d.cycle = .idle
  seed : d.seed = none

theorem Fresh.replace (fresh : d.Fresh) (text : Option String) : (d.replace text).Fresh := by
  cases text with
  | none => exact fresh
  | some text => exact { fresh with }

theorem Fresh.type (fresh : d.Fresh) (c : Char) : (d.type c).Fresh := by
  rw [Desk.type]
  split
  · exact { fresh with }
  · exact { fresh with }

theorem Fresh.strike (fresh : d.Fresh) {key : Key} (other : key.code ≠ .tab) : (d.strike key).Fresh := by
  unfold Desk.strike
  split
  · exact fresh.type _
  · split
    · exact { fresh with }
    · exact fresh
  · exact fresh
  · exact { fresh with }
  · exact { fresh with }
  · exact { fresh with }
  · have stepped : { d with session := d.session.recallPrevious.2 }.Fresh := { fresh with }
    exact stepped.replace _
  · exact { fresh with }
  · exact absurd rfl other
  · exact { fresh with }
  · exact fresh
  · exact fresh

theorem Fresh.close (fresh : d.Fresh) (choice : Option String) : (d.close choice).Fresh := by
  cases choice with
  | some command => exact { fresh with }
  | none => exact { fresh with }

theorem isOver_complete (d : Desk) : d.complete.isOver = d.isOver := by rw [complete_eq, isOver_replace]

theorem asked_complete (d : Desk) : d.complete.asked = d.asked := by rw [complete_eq, asked_replace]

theorem press_in_line (going : d.isOver = false) (unasked : d.asked = none) (key : Key) :
    d.press key = (if key.code = .tab then d else d.forgetCompletion).strike key :=
  if_neg (by simp [going, unasked])

theorem press_tab (going : d.isOver = false) (unasked : d.asked = none) {key : Key} (tab : key.code = .tab) :
    d.press key = d.complete := by
  obtain ⟨code, modifiers⟩ := key
  obtain rfl : code = .tab := tab
  exact press_in_line going unasked _

/-- One more key. A Tab counts in the line only: no Tab opens a menu or ends the run. -/
theorem fresh_press (aside : d.isOver = true ∨ d.asked ≠ none → d.Fresh) (key : Key)
    (spared : key.code = .tab → (d.press key).isOver = true ∨ (d.press key).asked ≠ none) : (d.press key).Fresh := by
  by_cases away : d.isOver = true ∨ d.asked.isSome = true
  · rw [press, if_pos away]
    exact aside (away.imp_right Option.isSome_iff_ne_none.mp)
  · obtain ⟨going, unasked⟩ : d.isOver = false ∧ d.asked = none := by simpa using away
    by_cases tab : key.code = .tab
    · -- what is spared is a menu that is open or a run that is over, and the Tab has brought about neither
      have stays := spared tab
      rw [press_tab going unasked tab, isOver_complete, asked_complete, going, unasked] at stays
      simp at stays
    · have forgotten : d.forgetCompletion.Fresh := ⟨rfl, rfl⟩
      rw [press_in_line going unasked, if_neg tab]
      exact forgotten.strike tab

theorem answer_cases (d : Desk) (a : Answer) :
    d.answer a = d ∨ d.asked ≠ none ∧ ∃ choice, d.answer a = d.close choice := by
  rw [answer]
  split
  · exact .inl rfl
  · cases asked : d.asked with
    | none => exact .inl rfl
    | some options =>
      refine .inr ⟨Option.some_ne_none options, ?_⟩
      cases a with
      | chosen position => exact ⟨_, rfl⟩
      | cancelled => exact ⟨_, rfl⟩
      | failed message => exact ⟨_, rfl⟩

theorem fresh_after (session : Session) (happenings : List Happening) :
    let d := (start session).after happenings
    (∀ key ∈ (keys happenings).getLast?, key.code ≠ .tab) ∨ d.isOver = true ∨ d.asked ≠ none → d.Fresh := by
  induction happenings using List.reverseRecOn with
  | nil => exact fun _ => ⟨rfl, rfl⟩
  | append_singleton happenings happening ih =>
    rw [after_concat, keys_append]
    cases happening with
    | pause ms =>
      have same : keys happenings ++ keys [.pause ms] = keys happenings := List.append_nil _
      rw [same]
      exact ih
    | key key =>
      have last : (keys happenings ++ keys [.key key]).getLast? = some key := List.getLast?_concat
      rw [last]
      intro d spared
      refine fresh_press (fun aside => ih (.inr aside)) key fun tab => spared.resolve_left fun other => ?_
      exact other key rfl tab
    | answer a =>
      have same : keys happenings ++ keys [.answer a] = keys happenings := List.append_nil _
      rw [same, take]
      rcases answer_cases ((start session).after happenings) a with unchanged | ⟨asked, choice, closed⟩
      · rw [unchanged]
        exact ih
      · rw [closed]
        exact fun _ => (ih (.inr (.inr asked))).close choice

/-! ### Tab after Tab -/

/-- What Tabs make of a fresh desk: the candidates of its line are walked round, and this is the position. -/
def completed (d : Desk) (position : Nat) : Desk :=
  let candidates := d.session.suggest d.editor.toText
  { d with cycle := .showing candidates position, seed := some d.editor.toText }.replace
    candidates[position % candidates.length]?

theorem completed_of_nothing (none : d.session.suggest d.editor.toText = []) (position : Nat) :
    d.completed position = { d with cycle := .showing [] position, seed := some d.editor.toText } := by
  rw [completed, none]
  rfl

theorem completed_of_candidate {text : String} {position : Nat}
    (found : (d.session.suggest d.editor.toText)[position % (d.session.suggest d.editor.toText).length]? = some text) :
    d.completed position = { d with
      cycle := .showing (d.session.suggest d.editor.toText) position, seed := some d.editor.toText, editor := .ofText text } := by
  rw [completed]
  simp only [found]
  rfl

theorem exists_candidate {candidates : List String} (filled : candidates ≠ []) (position : Nat) :
    ∃ text, candidates[position % candidates.length]? = some text :=
  ⟨_, List.getElem?_eq_getElem (Nat.mod_lt position (List.length_pos_iff.mpr filled))⟩

theorem complete_of_fresh (fresh : d.Fresh) : d.complete = d.completed 0 := by
  rw [complete, completed, fresh.seed, fresh.cycle]
  simp only [Option.getD_none, SuggestionCycle.accept_idle]

/-- The candidates are those of the first line still, and the next one takes the place of the last. -/
theorem complete_completed (d : Desk) (position : Nat) : (d.completed position).complete = d.completed (position + 1) := by
  by_cases nothing : d.session.suggest d.editor.toText = []
  · rw [completed_of_nothing nothing, completed_of_nothing nothing, complete]
    simp only [Option.getD_some, nothing, SuggestionCycle.accept_showing]
    rfl
  · obtain ⟨text, found⟩ := exists_candidate nothing position
    obtain ⟨next, follows⟩ := exists_candidate nothing (position + 1)
    rw [completed_of_candidate found, completed_of_candidate follows, complete]
    simp only [Option.getD_some, SuggestionCycle.accept_showing, follows]
    rfl

theorem session_completed (d : Desk) (position : Nat) : (d.completed position).session = d.session := session_replace _ _

theorem iterate_complete (fresh : d.Fresh) (count : Nat) : Nat.iterate complete (count + 1) d = d.completed count := by
  induction count with
  | zero => exact complete_of_fresh fresh
  | succ count ih => rw [Function.iterate_succ_apply', ih, complete_completed]

/-- As long as no other key is pressed, a line stays a line: there is no menu that could answer. -/
theorem after_eq_iterate {tabs : List Happening} (going : d.isOver = false) (unasked : d.asked = none)
    (tabbing : ∀ key ∈ keys tabs, key.code = .tab) : d.after tabs = Nat.iterate complete (keys tabs).length d := by
  induction tabs generalizing d with
  | nil => rfl
  | cons happening rest ih =>
    cases happening with
    | pause ms => exact ih going unasked tabbing
    | answer a =>
      have unchanged : d.answer a = d := (answer_cases d a).resolve_right fun asked => asked.1 unasked
      have stays : d.after (.answer a :: rest) = (d.answer a).after rest := rfl
      rw [stays, unchanged]
      exact ih going unasked tabbing
    | key key =>
      obtain ⟨tab, tabbing⟩ := List.forall_mem_cons.mp tabbing
      have steps : d.after (.key key :: rest) = (d.press key).after rest := rfl
      rw [steps, press_tab going unasked tab]
      exact ih ((isOver_complete d).trans going) ((asked_complete d).trans unasked) tabbing

theorem after_tabs {tabs : List Happening} {count : Nat} (fresh : d.Fresh) (going : d.isOver = false)
    (unasked : d.asked = none) (tabbing : (keys tabs).map Key.code = List.replicate (count + 1) .tab) :
    d.after tabs = d.completed count := by
  obtain ⟨length, all⟩ := List.eq_replicate_iff.mp tabbing
  rw [List.length_map] at length
  rw [after_eq_iterate going unasked (List.forall_mem_map.mp all), length, iterate_complete fresh]

end Desk

namespace Prompter

variable {p q : Prompter} {d : Desk}

theorem completes_of_follows (follows : p.Follows d) {position : Nat} (after : q.Follows (d.completed position)) :
    q.line.Completes p.line (p.session.suggest p.line.text) position := by
  have candidates : p.session.suggest p.line.text = d.session.suggest d.editor.toText := by
    rw [follows.session, follows.shows.text_eq]
  rw [candidates]
  constructor
  · intro filled
    obtain ⟨text, found⟩ := Desk.exists_candidate filled position
    have shows := after.shows
    rw [Desk.completed_of_candidate found] at shows
    rw [shows.unique (InputLine.shows_ofText text)]
    exact ⟨found, rfl⟩
  · intro nothing
    have shows := after.shows
    rw [Desk.completed_of_nothing nothing] at shows
    exact shows.unique follows.shows

theorem completes_after (session : Session) (width : Nat) {happenings tabs : List Happening} {count : Nat}
    (other : ∀ key ∈ (keys happenings).getLast?, key.code ≠ .tab)
    (tabbing : (keys tabs).map Key.code = List.replicate (count + 1) .tab)
    (going : ((start session width).after happenings).isOver = false)
    (noMenu : ((start session width).after happenings).menu = none) :
    let p := (start session width).after happenings
    (p.after tabs).line.Completes p.line (p.session.suggest p.line.text) count ∧ (p.after tabs).session = p.session ∧
      (p.after tabs).fault = none := by
  intro p
  have follows : p.Follows ((Desk.start session).after happenings) := (follows_start session width).after happenings
  have fresh : ((Desk.start session).after happenings).Fresh := Desk.fresh_after session happenings (.inl other)
  have after := follows.after tabs
  rw [Desk.after_tabs fresh (follows.isOver.symm.trans going) (follows.menu_eq_none_iff.mp noMenu) tabbing] at after
  refine ⟨completes_of_follows follows after, ?_, after.noFault⟩
  rw [after.session, Desk.session_completed, follows.session]

/-- At the start or after any key but Tab, with a line to type in: a run of Tabs, however much time passes between them,
leads to the candidate at its length, counted round, of those for the line as it was, and leaves the session as it was;
without candidates the line stays. And when other keys have been pressed behind the Tabs, the next Tab leads to the first
candidate for the line as it is then. -/
theorem tabs_walk_candidates (tree : ContentTree) (config : Config) (width : Nat) {happenings tabs : List Happening}
    {count : Nat} (other : ∀ key ∈ (keys happenings).getLast?, key.code ≠ .tab)
    (tabbing : (keys tabs).map Key.code = List.replicate (count + 1) .tab)
    (going : ((start (.start tree config) width).after happenings).isOver = false)
    (noMenu : ((start (.start tree config) width).after happenings).menu = none) :
    let p := (start (.start tree config) width).after happenings
    let q := p.after tabs
    q.line.Completes p.line (p.session.suggest p.line.text) count ∧ q.session = p.session ∧ q.fault = none ∧
    ∀ (between : List Happening) (key tab : Key), (keys between).getLast? = some key → key.code ≠ .tab →
      tab.code = .tab →
      let r := q.after between
      r.isOver = false → r.menu = none →
        (r.handle tab).line.Completes r.line (r.session.suggest r.line.text) 0 := by
  intro p q
  obtain ⟨line, session, noFault⟩ := completes_after (.start tree config) width other tabbing going noMenu
  refine ⟨line, session, noFault, ?_⟩
  intro between key tab last isOther isTab r
  have whole : r = (start (.start tree config) width).after (happenings ++ tabs ++ between) := by
    rw [after_append, after_append]
  have final : ∀ key ∈ (keys (happenings ++ tabs ++ between)).getLast?, key.code ≠ .tab := by
    rw [keys_append, List.getLast?_append, last]
    exact fun _ same => Option.some.inj same ▸ isOther
  have once : (keys [.key tab]).map Key.code = List.replicate (0 + 1) .tab := congrArg List.singleton isTab
  rw [whole]
  intro stays inLine
  exact (completes_after (.start tree config) width final once stays inLine).1

/-- The sixth Tab leads to the second of four candidates. After a Backspace the line is as it was at first, and so is
what Tab leads to. -/
theorem tabs_walk_sample_candidates :
    let p := (start (.start Sample.tree .default) 80).after [.key (.char 'c')]
    let q := p.after [.key .tab, .key .tab, .pause 100, .key .tab, .key .tab, .key .tab, .key .tab]
    let r := q.after [.key .backspace, .pause 5]
    p.session.suggest p.line.text = ["clear", "cd", "cat", "contact"] ∧ q.line.text = "cd" ∧ q.line.cursor = 2 ∧
      q.session = p.session ∧ r.line.text = "c" ∧ (r.handle .tab).line.text = "clear" := by
  intro p q r
  have candidates : p.session.suggest p.line.text = ["clear", "cd", "cat", "contact"] := by decide +kernel
  have again : r.session.suggest r.line.text = ["clear", "cd", "cat", "contact"] := by decide +kernel
  obtain ⟨line, session, -, afresh⟩ := @tabs_walk_candidates Sample.tree .default 80 [.key (.char 'c')]
    [.key .tab, .key .tab, .pause 100, .key .tab, .key .tab, .key .tab, .key .tab] 5
    (by decide) rfl (by decide +kernel) (by decide +kernel)
  have first := afresh [.key .backspace, .pause 5] .backspace .tab rfl (by decide) rfl (by decide +kernel) (by decide +kernel)
  rw [candidates] at line
  rw [again] at first
  obtain ⟨text, cursor⟩ := line.candidate (by decide)
  have second : q.line.text = "cd" := by simpa using text.symm
  refine ⟨candidates, second, ?_, session, by decide +kernel, ?_⟩
  · rw [cursor, InputLine.length, second]
    rfl
  · simpa using (first.candidate (by decide)).1.symm

end Prompter

end PortfolioShell.Terminal
