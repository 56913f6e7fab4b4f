import PortfolioShell.Proofs.Terminal.LineEditor
import PortfolioShell.Terminal.Prompter
import PortfolioShell.Tree.Sample

/-! # Typing

What happens at a prompter, told without bytes, screen and panel: a `Desk` has a session, a plain line editor, and what
Tab remembers, and it knows what a menu offers, but not how the menu comes to its answer. `Prompter.Follows` ties a
prompter to a desk. Whatever only writes, notes or tells the panel keeps the tie; each key and each answer keeps it, and
so does the time between them. By `line_follows_editor` the line of a prompter is therefore the line of the editor after
every run: the program never stops at a fault, and Enter submits the text of the editor. -/

namespace PortfolioShell.Terminal

-- a submission stands for itself and is not evaluated
attribute [local irreducible] Session.submit

structure Desk where
  session : Session
  editor : LineEditor := .empty
  cycle : SuggestionCycle := .idle
  seed : Option String := none
  /-- What a menu that is open offers. -/
  asked : Option (List String) := none
  isOver : Bool := false

namespace Desk

def start (session : Session) : Desk := { session }

def submit (d : Desk) (line : String) : Desk := { d with session := (d.session.submit line).2 }

def newLine (d : Desk) : Desk := { d with editor := .empty }

/-- Another line in place of the one that is being typed, with the cursor at its end. -/
def replace (d : Desk) : Option String → Desk
  | some text => { d with editor := .ofText text }
  | none => d

def complete (d : Desk) : Desk :=
  let seed := d.seed.getD d.editor.toText
  let (accepted, cycle) := d.cycle.accept (d.session.suggest seed)
  { d with cycle, seed := some seed }.replace accepted

def type (d : Desk) (c : Char) : Desk :=
  if c = '/' ∧ d.editor = .empty then { d with asked := some d.session.quickCommands }
  else { d with editor := d.editor.insert c }

/-- A character is typed unless Control or Alt is held down; Control alone with C or D leaves. -/
def strike (d : Desk) : Key → Desk
  | ⟨.char c, ⟨_, false, false⟩⟩ => d.type c
  | ⟨.char c, ⟨false, true, false⟩⟩ => if c = 'c' ∨ c = 'd' then { d with isOver := true } else d
  | ⟨.char _, _⟩ => d
  | ⟨.backspace, _⟩ => { d with editor := d.editor.erase }
  | ⟨.left, _⟩ => { d with editor := d.editor.left }
  | ⟨.right, _⟩ => { d with editor := d.editor.right }
  | ⟨.up, _⟩ => { d with session := d.session.recallPrevious.2 }.replace d.session.recallPrevious.1
  | ⟨.down, _⟩ => { d with session := d.session.recallNext.2, editor := .ofText (d.session.recallNext.1.getD "") }
  | ⟨.tab, _⟩ => d.complete
  | ⟨.enter, _⟩ => (d.submit d.editor.toText).newLine
  | ⟨.escape, _⟩ | ⟨.other, _⟩ => d

def forgetCompletion (d : Desk) : Desk := { d with cycle := .idle, seed := none }

/-- A key that is pressed while the menu is open is for the menu. -/
def press (d : Desk) (key : Key) : Desk :=
  if d.isOver ∨ d.asked.isSome then d
  else (if key.code = .tab then d else d.forgetCompletion).strike key

/-- Without the menu: what was chosen is submitted, and the next line is begun in any case. -/
def close (d : Desk) : Option String → Desk
  | some command => ({ d with asked := none }.submit command).newLine
  | none => { d with asked := none }.newLine

def answer (d : Desk) (a : Answer) : Desk :=
  if d.isOver then d
  else match d.asked with
    | none => d
    | some options =>
      match a with
      | .chosen position => d.close options[position]?
      | .cancelled | .failed _ => d.close none

end Desk

/-- The key of a character, with neither Control nor Alt. -/
def Key.Types (key : Key) (c : Char) : Prop :=
  key.code = .char c ∧ key.modifiers.control = false ∧ key.modifiers.alt = false

/-- What happens at a terminal: a key is pressed, a menu answers, or some milliseconds pass. -/
inductive Happening where
  | key (key : Key)
  | answer (a : Answer)
  | pause (ms : Nat)

def Happening.key? : Happening → Option Key
  | .key pressed => some pressed
  | .answer _ | .pause _ => none

def keys (happenings : List Happening) : List Key := happenings.filterMap Happening.key?

theorem keys_append (happenings later : List Happening) : keys (happenings ++ later) = keys happenings ++ keys later :=
  List.filterMap_append

/-- A desk does not see time. -/
def Desk.take (d : Desk) : Happening → Desk
  | .key key => d.press key
  | .answer a => d.answer a
  | .pause _ => d

def Desk.after (d : Desk) (happenings : List Happening) : Desk := happenings.foldl take d

theorem Desk.after_concat (d : Desk) (happenings : List Happening) (happening : Happening) :
    d.after (happenings ++ [happening]) = (d.after happenings).take happening :=
  List.foldl_append

namespace Prompter

/-- The panel is read before the next key is awaited, but not while the menu is open. -/
def take (p : Prompter) : Happening → Prompter
  | .key key => p.handle key
  | .answer a => p.answer a
  | .pause ms => if p.menu.isSome then p.elapse ms else (p.elapse ms).drain

def after (p : Prompter) (happenings : List Happening) : Prompter := happenings.foldl take p

theorem after_append (p : Prompter) (happenings later : List Happening) :
    p.after (happenings ++ later) = (p.after happenings).after later :=
  List.foldl_append

/-- On a terminal with a menu of arrow keys nothing happens that could not happen with some menu. -/
theorem foldl_press_eq_after (p : Prompter) (pressed : List Key) :
    ∃ happenings, keys happenings = pressed ∧ pressed.foldl press p = p.after happenings := by
  induction pressed generalizing p with
  | nil => exact ⟨[], rfl, rfl⟩
  | cons key rest ih =>
    obtain ⟨later, same, reached⟩ := ih (p.press key)
    rw [List.foldl_cons, reached, press]
    cases (p.handle key).menu.bind Menu.answer? with
    | none => exact ⟨.key key :: later, congrArg _ same, rfl⟩
    | some a => exact ⟨.key key :: .answer a :: later, congrArg _ same, rfl⟩

/-- The prompter has not stopped at a fault, and is where the desk is. -/
structure Follows (p : Prompter) (d : Desk) : Prop where
  noFault : p.fault = none
  shows : p.line.Shows d.editor
  session : p.session = d.session
  cycle : p.cycle = d.cycle
  seed : p.seed = d.seed
  offers : p.menu.map Menu.options = d.asked
  isOver : p.isOver = d.isOver

variable {p : Prompter} {d : Desk}

namespace Follows

theorem isDone (follows : p.Follows d) : p.isDone = d.isOver := by
  simp [Prompter.isDone, follows.noFault, follows.isOver]

theorem menu_eq_none_iff (follows : p.Follows d) : p.menu = none ↔ d.asked = none := by
  rw [← follows.offers, Option.map_eq_none_iff]

/-! ### What keeps the line -/

theorem foldl {α : Type} {step : Prompter → α → Prompter} (keeps : ∀ p a, p.Follows d → (step p a).Follows d)
    (follows : p.Follows d) (items : List α) : (items.foldl step p).Follows d := by
  induction items generalizing p with
  | nil => exact follows
  | cons a rest ih => exact ih (keeps p a follows)

theorem write (follows : p.Follows d) (piece : String) : (p.write piece).Follows d := { follows with }

theorem note (follows : p.Follows d) (e : Logging.Event) : (p.note e).Follows d := { follows with }

theorem request (follows : p.Follows d) (r : HostRequest) : (p.request r).Follows d := { follows with }

theorem prune (follows : p.Follows d) : p.prune.Follows d := { follows with }

theorem showEvent (follows : p.Follows d) (e : PanelEvent) : (p.showEvent e).Follows d :=
  (follows.note _).write _

theorem drain (follows : p.Follows d) : p.drain.Follows d := by
  have told : { p with panel := p.panel.receive.2 }.Follows d := { follows with }
  exact told.foldl (fun _ e follows => follows.showEvent e) _

theorem elapse (follows : p.Follows d) (ms : Nat) : (p.elapse ms).Follows d := by
  have later : { p with panel := p.panel.advance ms }.Follows d := { follows with }
  exact later.foldl (fun _ _ follows => follows.note _) _

theorem showRecord (follows : p.Follows d) (r : Record) : (p.showRecord r).Follows d := by
  rw [Prompter.showRecord]
  split
  · exact follows
  · exact follows.foldl (fun _ _ follows => follows.write _) _

theorem withSession (follows : p.Follows d) (session : Session) :
    { p with session }.Follows { d with session } := { follows with session := rfl }

/-- Carrying out a line changes the session only. -/
theorem process (follows : p.Follows d) (line : String) :
    (p.process line).Follows (d.submit line) := by
  have noted := follows.foldl (fun _ e follows => follows.note e) (p.session.submitEvents line)
  rw [Prompter.process, Desk.submit, ← follows.session]
  -- Only that the session is the same counts: what the submission answers goes to the screen and the panel.
  obtain ⟨outcome, session⟩ := p.session.submit line
  refine drain (foldl (fun _ r follows => follows.request r) (prune ?_) _)
  refine foldl (fun _ r follows => follows.showRecord r) ?_ _
  exact (noted.withSession session).note _

/-! ### What draws the line -/

theorem draw (follows : p.Follows d) {line : InputLine} {e : LineEditor} (shows : line.Shows e) :
    (p.draw line).Follows d := by
  rw [Prompter.draw, promptLine, shows.behindCursor]
  exact follows.write _

theorem setLine (follows : p.Follows d) {line : InputLine} {e : LineEditor} (shows : line.Shows e) :
    (p.setLine line).Follows { d with editor := e } := by
  have set : { p with line }.Follows { d with editor := e } := { follows with shows }
  exact set.draw shows

theorem newLine (follows : p.Follows d) : p.newLine.Follows d.newLine :=
  follows.setLine InputLine.shows_empty

theorem edit (follows : p.Follows d) {edited : Except LineFault InputLine} {e : LineEditor}
    (shows : ∃ line, edited = .ok line ∧ line.Shows e) : (p.edit edited).Follows { d with editor := e } := by
  obtain ⟨line, rfl, shows⟩ := shows
  exact follows.setLine shows

theorem replaceLine (follows : p.Follows d) (text : Option String) : (p.replaceLine text).Follows (d.replace text) := by
  cases text with
  | none => exact follows
  | some text => exact follows.setLine (InputLine.shows_ofText text)

/-! ### Keys -/

theorem complete (follows : p.Follows d) : p.complete.Follows d.complete := by
  have seed : p.seed.getD p.line.text = d.seed.getD d.editor.toText := by
    rw [follows.seed, follows.shows.text_eq]
  have accepted (seed : String) : p.cycle.accept (p.session.suggest seed) = d.cycle.accept (d.session.suggest seed) := by
    rw [follows.cycle, follows.session]
  rw [Prompter.complete, Desk.complete, seed]
  simp only [accepted]
  refine replaceLine ?_ _
  exact { follows with cycle := rfl, seed := rfl }

theorem openMenu (follows : p.Follows d) :
    p.openMenu.Follows { d with asked := some d.session.quickCommands } := by
  have offers : p.session.quickCommands = d.session.quickCommands := congrArg _ follows.session
  exact { follows with offers := congrArg some offers }

theorem type (follows : p.Follows d) (c : Char) : (p.type c).Follows (d.type c) := by
  have shows := follows.shows
  have opens : (c = '/' && p.line.isEmpty) = true ↔ c = '/' ∧ d.editor = .empty := by
    rw [Bool.and_eq_true, decide_eq_true_iff, shows.isEmpty_iff]
  rw [Prompter.type, Desk.type]
  by_cases slash : c = '/' ∧ d.editor = .empty
  · rw [if_pos (opens.mpr slash), if_pos slash]
    exact follows.openMenu
  · rw [if_neg (mt opens.mp slash), if_neg slash]
    exact follows.edit (shows.insert c)

/-- With a character it counts what is held down: the prompter asks for what it takes, the desk for what it does not. -/
theorem handleInLine_char (follows : p.Follows d) (c : Char) (modifiers : Modifiers) :
    (p.handleInLine ⟨.char c, modifiers⟩).Follows (d.strike ⟨.char c, modifiers⟩) := by
  obtain ⟨shift, control, alt⟩ := modifiers
  cases control with
  | false =>
    cases alt with
    | false => cases shift <;> exact follows.type c
    | true => cases shift <;> exact follows
  | true =>
    cases alt with
    | true => cases shift <;> exact follows
    | false =>
      cases shift with
      | true => exact follows
      | false =>
        have leaves : Key.isInterrupt ⟨.char c, ⟨false, true, false⟩⟩ = true ↔ c = 'c' ∨ c = 'd' := by
          simp [Key.isInterrupt, Modifiers.controlled]
        rw [Prompter.handleInLine, Desk.strike]
        by_cases letter : c = 'c' ∨ c = 'd'
        · rw [if_pos (leaves.mpr letter), if_pos letter]
          exact { follows with isOver := rfl }
        · rw [if_neg (mt leaves.mp letter), if_neg letter]
          exact follows

theorem handleInLine (follows : p.Follows d) (key : Key) : (p.handleInLine key).Follows (d.strike key) := by
  have shows := follows.shows
  obtain ⟨code, modifiers⟩ := key
  cases code with
  | char c => exact follows.handleInLine_char c modifiers
  | backspace =>
    rw [Prompter.handleInLine, Desk.strike]
    split
    · rename_i start
      rw [(shows.stays_at_start start).1]
      exact follows
    · rename_i inside
      exact follows.edit (shows.removeBefore inside)
  | left =>
    rw [Prompter.handleInLine, Desk.strike]
    split
    · rename_i start
      rw [(shows.stays_at_start start).2]
      exact follows
    · exact follows.setLine shows.left
  | right =>
    rw [Prompter.handleInLine, Desk.strike]
    split
    · rename_i inside
      exact follows.setLine (shows.right inside)
    · rename_i fully
      rw [shows.stays_at_end fully]
      exact follows
  | up =>
    rw [Prompter.handleInLine, Desk.strike, follows.session]
    exact (follows.withSession _).replaceLine _
  | down =>
    rw [Prompter.handleInLine, Desk.strike, follows.session]
    exact (follows.withSession _).setLine (InputLine.shows_ofText _)
  | tab => exact follows.complete
  | enter =>
    rw [Prompter.handleInLine, Desk.strike, shows.text_eq]
    exact ((follows.write lineEnd).process d.editor.toText).newLine
  | escape => exact follows
  | other => exact follows

theorem forgetCompletion (follows : p.Follows d) : p.forgetCompletion.Follows d.forgetCompletion :=
  { follows with cycle := rfl, seed := rfl }

theorem handle (follows : p.Follows d) (key : Key) : (p.handle key).Follows (d.press key) := by
  rw [Prompter.handle, Desk.press, follows.isDone]
  by_cases ended : d.isOver = true
  · rw [if_pos ended, if_pos (.inl ended)]
    exact follows
  rw [if_neg ended]
  cases opened : p.menu with
  | some menu =>
    have offers : some menu.options = d.asked := by rw [← follows.offers, opened, Option.map_some]
    have asked : d.isOver = true ∨ d.asked.isSome = true := .inr (offers ▸ rfl)
    rw [if_pos asked]
    exact { follows with offers }
  | none =>
    have unasked : ¬(d.isOver = true ∨ d.asked.isSome = true) := by
      simp [ended, follows.menu_eq_none_iff.mp opened]
    rw [if_neg unasked]
    by_cases tab : key.code = .tab
    · simp only [if_pos tab]
      exact follows.handleInLine key
    · simp only [if_neg tab]
      exact follows.forgetCompletion.handleInLine key

/-! ### The menu -/

theorem runChoice (follows : p.Follows d) (command : String) :
    (p.runChoice command).Follows (d.submit command) :=
  ((follows.draw (InputLine.shows_ofText command)).write lineEnd).process command

theorem report (follows : p.Follows d) (a : Answer) : (p.report a).Follows d := by
  cases a with
  | chosen position => exact follows
  | cancelled => exact follows
  | failed message => exact follows.write _

theorem answer (follows : p.Follows d) (a : Answer) : (p.answer a).Follows (d.answer a) := by
  rw [Prompter.answer, Desk.answer, follows.isDone]
  by_cases ended : d.isOver = true
  · rw [if_pos ended, if_pos ended]
    exact follows
  rw [if_neg ended, if_neg ended]
  cases opened : p.menu with
  | none =>
    rw [follows.menu_eq_none_iff.mp opened]
    exact follows
  | some menu =>
    have offers : d.asked = some menu.options := by rw [← follows.offers, opened, Option.map_some]
    have closed : { p with menu := none }.Follows { d with asked := none } := { follows with offers := rfl }
    have unchosen (a : Answer) : ({ p with menu := none }.report a).newLine.drain.Follows (d.close none) :=
      (closed.report a).newLine.drain
    rw [offers]
    cases a with
    | chosen position =>
      simp only [Menu.choice?]
      cases menu.options[position]? with
      | some command => exact (closed.runChoice command).newLine
      | none => exact unchosen _
    | cancelled => exact unchosen _
    | failed message => exact unchosen _

/-! ### Runs -/

theorem take (follows : p.Follows d) (happening : Happening) : (p.take happening).Follows (d.take happening) := by
  cases happening with
  | key key => exact follows.handle key
  | answer a => exact follows.answer a
  | pause ms =>
    rw [Prompter.take]
    split
    · exact follows.elapse ms
    · exact (follows.elapse ms).drain

theorem after (follows : p.Follows d) (happenings : List Happening) :
    (p.after happenings).Follows (d.after happenings) := by
  induction happenings generalizing p d with
  | nil => exact follows
  | cons happening rest ih => exact ih (follows.take happening)

theorem handle_in_line (follows : p.Follows d) (going : d.isOver = false) (unasked : d.asked = none) {key : Key}
    (other : key.code ≠ .tab) : p.handle key = p.forgetCompletion.handleInLine key := by
  have awake : ¬ p.isDone = true := by simp [follows.isDone, going]
  rw [Prompter.handle, if_neg awake, follows.menu_eq_none_iff.mpr unasked]
  simp only [if_neg other]

/-- Enter submits what the editor holds. -/
theorem handle_enter (follows : p.Follows d) (going : d.isOver = false) (unasked : d.asked = none) {key : Key}
    (enter : key.code = .enter) :
    p.handle key = ((p.forgetCompletion.write lineEnd).process d.editor.toText).newLine := by
  have text : p.forgetCompletion.line.text = d.editor.toText := follows.shows.text_eq
  obtain ⟨code, modifiers⟩ := key
  obtain rfl : code = .enter := enter
  rw [follows.handle_in_line going unasked (KeyCode.noConfusion ·), Prompter.handleInLine, ← text]

/-- A slash that is typed on an empty line opens a menu of the quick commands and is not in the line. -/
theorem handle_slash (follows : p.Follows d) (going : d.isOver = false) (unasked : d.asked = none) {key : Key}
    (slash : key.Types '/') (empty : p.line.text = "") :
    (p.handle key).line = .empty ∧ (p.handle key).menu.map Menu.options = some p.session.quickCommands := by
  obtain ⟨code, shift, control, alt⟩ := key
  obtain ⟨rfl, rfl, rfl⟩ : code = .char '/' ∧ control = false ∧ alt = false := slash
  have nothing : d.editor = .empty := by
    rw [← d.editor.toList_eq_nil_iff, ← follows.shows.text, empty]
    rfl
  have asks : d.press ⟨.char '/', ⟨shift, false, false⟩⟩ =
      { d.forgetCompletion with asked := some d.session.quickCommands } := by
    rw [Desk.press, if_neg (by simp [going, unasked])]
    exact if_pos ⟨rfl, nothing⟩
  have after := follows.handle ⟨.char '/', ⟨shift, false, false⟩⟩
  rw [asks] at after
  have shows : (p.handle ⟨.char '/', ⟨shift, false, false⟩⟩).line.Shows .empty := nothing ▸ after.shows
  exact ⟨shows.unique InputLine.shows_empty, after.offers.trans (by rw [follows.session])⟩

end Follows

theorem follows_start (session : Session) (width : Nat) : (start session width).Follows (.start session) := by
  have fresh : ({ session, width } : Prompter).Follows (.start session) :=
    ⟨rfl, InputLine.shows_empty, rfl, rfl, rfl, rfl, rfl⟩
  exact (fresh.write welcome).newLine

/-- The program that runs, with its menu of arrow keys, stops at no fault. -/
theorem fault_of_presses (session : Session) (width : Nat) (pressed : List Key) :
    (pressed.foldl press (start session width)).fault = none := by
  obtain ⟨happenings, -, reached⟩ := foldl_press_eq_after (start session width) pressed
  rw [reached]
  exact ((follows_start session width).after happenings).noFault

/-- Whatever keys are pressed, whatever the menu answers and however much time passes: no edit and no redrawing of the
line fails, its text and cursor are those of the plain editor, and Enter, unless it is for the menu or after the end,
submits the text of that editor. A slash on an empty line opens a menu of exactly the quick commands instead. -/
theorem line_follows_editor (tree : ContentTree) (config : Config) (width : Nat) (happenings : List Happening) :
    let p := (start (.start tree config) width).after happenings
    let d := (Desk.start (.start tree config)).after happenings
    p.fault = none ∧ p.line.cursor ≤ p.line.length ∧
    p.line.text.toList = d.editor.toList ∧ p.line.cursor = d.editor.cursor ∧
    p.session = d.session ∧ p.menu.map Menu.options = d.asked ∧ p.isOver = d.isOver ∧
    (d.isOver = false → d.asked = none → ∀ key : Key,
      (key.code = .enter → p.handle key = ((p.forgetCompletion.write lineEnd).process d.editor.toText).newLine) ∧
      (key.Types '/' → p.line.text = "" →
        (p.handle key).line = .empty ∧ (p.handle key).menu.map Menu.options = some p.session.quickCommands)) := by
  intro p d
  have follows : p.Follows d := (follows_start (.start tree config) width).after happenings
  exact ⟨follows.noFault, follows.shows.cursor_le_length, follows.shows.text, follows.shows.cursor,
    follows.session, follows.offers, follows.isOver,
    fun going unasked _ => ⟨follows.handle_enter going unasked, follows.handle_slash going unasked⟩⟩

/-- What Alt comes with is not typed, and a character is erased as a whole. The fourth of the quick commands leads to the
skills, and Up, Backspace and Tab to the same line once more. -/
theorem line_follows_editor_in_sample :
    let first := start (.start Sample.tree .default) 80
    let typed : List Happening := [.key (.char 'h'), .key ⟨.char 'é', .shifted⟩, .key (.char '東'),
      .key ⟨.char 'x', ⟨false, false, true⟩⟩, .key .left, .key .backspace]
    let submitted := typed ++ [.key .enter, .pause 10]
    let completed := submitted ++
      [.key (.char '/'), .key .tab, .answer (.chosen 3), .key .up, .key .backspace, .key .tab]
    let last := first.after completed
    (first.after typed).line = ⟨"h東", 1⟩ ∧ ((first.after submitted).handle (.char '/')).line = .empty ∧
      ((first.after submitted).handle (.char '/')).menu.map Menu.options =
        some ["help", "ls", "projects", "skills", "contact"] ∧
      last.session.location = ⟨["skills"]⟩ ∧ last.line = ⟨"skills", 6⟩ ∧
      last.handle .enter = ((last.forgetCompletion.write lineEnd).process "skills").newLine := by
  intro first typed submitted completed last
  let desk := Desk.start (.start Sample.tree .default)
  have editors : (desk.after typed).editor = ⟨['h'], ['東']⟩ ∧ (desk.after submitted).editor = .empty ∧
      (desk.after completed).editor = .ofText "skills" := by decide +kernel
  obtain ⟨written, nothing, candidate⟩ := editors
  obtain ⟨-, -, text, cursor, -⟩ := line_follows_editor Sample.tree .default 80 typed
  obtain ⟨-, -, empty, -, -, -, -, keys⟩ := line_follows_editor Sample.tree .default 80 submitted
  obtain ⟨-, -, candidateText, candidateCursor, -, -, -, candidateKeys⟩ := line_follows_editor Sample.tree .default 80 completed
  rw [written] at text cursor
  rw [nothing] at empty
  rw [candidate] at candidateText candidateCursor
  obtain ⟨opens, offers⟩ := (keys (by decide +kernel) (by decide +kernel) (.char '/')).2 ⟨rfl, rfl, rfl⟩
    (String.toList_eq_nil_iff.mp empty)
  have enter := (candidateKeys (by decide +kernel) (by decide +kernel) .enter).1 rfl
  have same : (LineEditor.ofText "skills").toText = "skills" := by decide
  rw [candidate, same] at enter
  have line : (first.after typed).line = ⟨"h東", 1⟩ := InputLine.Shows.unique ⟨text, cursor⟩ ⟨rfl, rfl⟩
  have candidateLine : last.line = .ofText "skills" := InputLine.Shows.unique ⟨candidateText, candidateCursor⟩ (InputLine.shows_ofText _)
  have location : last.session.location = ⟨["skills"]⟩ := by decide +kernel
  have options : (first.after submitted).session.quickCommands = ["help", "ls", "projects", "skills", "contact"] := by
    decide +kernel
  exact ⟨line, opens, offers.trans (congrArg some options), location, candidateLine.trans (by decide), enter⟩

end Prompter

end PortfolioShell.Terminal
