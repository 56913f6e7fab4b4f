import PortfolioShell.Proofs.Shell.Recall
import PortfolioShell.Proofs.Shell.Verbs
import PortfolioShell.Proofs.Shell.Whereabouts
import PortfolioShell.Proofs.Text.OneLine
import PortfolioShell.Proofs.Tree.Paths
import PortfolioShell.Shell.Rendering

/-! # Line feeds on the screen

A visitor types lines without line feeds, and names have none, so whatever the shell shows as it stands is of one
line (`tidy_submit`). Texts and contents may have line feeds, and are cut there. What is left are the descriptions
and previews in a listing, which are set in a table as they stand: their line feeds are on the screen unless the row
ends or is cut before them (`line_feed_shown_iff`). -/

namespace PortfolioShell

open Text (OneLine FeedShown)

/-! ### Names -/

theorem EntryName.oneLine {name : String} (named : EntryName name) : OneLine name := .of_solid named.solid

theorem Node.WellNamed.entryName_of_descend? {n m : Node} {names : List String} (h : n.WellNamed)
    (below : names ≠ []) (found : n.descend? names = some m) : EntryName m.name := by
  induction names generalizing n with
  | nil => exact absurd rfl below
  | cons name rest ih =>
    obtain ⟨c, child, found⟩ := Option.bind_eq_some_iff.mp found
    obtain ⟨same, named, sound⟩ := h.child? child
    by_cases last : rest = []
    · rw [last] at found
      obtain rfl := Option.some.inj found
      exact isEntryName_iff.mp (same ▸ named)
    · exact ih sound last found

theorem ContentTree.oneLine_of_lookup_file {tree : ContentTree} {l : Location} {label : Label} {content : Content}
    {link : Option String} (found : tree.lookup l = some (.file label content link)) : OneLine label.name := by
  have below : l.segments ≠ [] := fun none => by
    rw [lookup, none] at found
    have root := tree.isDirectory_root
    rw [Option.some.inj found] at root
    cases root
  exact (tree.wellNamed_root.entryName_of_descend? below found).oneLine

theorem ContentTree.oneLine_of_listing {tree : ContentTree} {l : Location} {entries : List Entry}
    (listed : tree.listing l = .entries entries) : ∀ e ∈ entries, OneLine e.name := by
  obtain ⟨label, children, found, rfl⟩ := listing_eq_entries_iff.mp listed
  have sound : (Node.directory label children).WellNamed := (tree.wellNamed_root.descend? found).2
  intro e member
  obtain ⟨c, child, rfl⟩ := List.mem_map.mp member
  exact (sound.entryName_of_mem child).oneLine

theorem ContentTree.oneLine_of_mem_sections {tree : ContentTree} : ∀ name ∈ tree.sections, OneLine name := by
  intro name member
  obtain ⟨c, child, rfl⟩ := List.mem_map.mp member
  exact (tree.wellNamed_root.entryName_of_mem (List.mem_filter.mp child).1).oneLine

theorem Location.oneLine_toText {l : Location} (named : ∀ name ∈ l.segments, isEntryName name = true) :
    OneLine l.toText := by
  rw [toText]
  split
  · decide
  · refine Text.oneLine_join fun piece listed => ?_
    obtain ⟨name, inside, rfl⟩ := List.mem_map.mp listed
    exact (by decide : OneLine "/").append (isEntryName_iff.mp (named name inside)).oneLine

theorem Verb.oneLine_name (v : Verb) : OneLine v.name := by cases v <;> decide

theorem Verb.oneLine_usage (v : Verb) : OneLine v.usage := by cases v <;> decide

theorem Verb.oneLine_description (v : Verb) : OneLine v.description := by cases v <;> decide

theorem Verb.oneLine_of_mem_menu {names : List String} (each : ∀ name ∈ names, OneLine name) :
    ∀ line ∈ menu names, OneLine line := by
  have help (v : Verb) : OneLine ("  " ++ Text.pad usageWidth v.usage ++ "  " ++ v.description) :=
    (((by decide : OneLine "  ").append (Text.oneLine_pad _ v.oneLine_usage)).append (by decide)).append
      v.oneLine_description
  have shortcuts : OneLine ("Shortcuts: " ++ String.intercalate ", " names) :=
    (by decide : OneLine "Shortcuts: ").append (Text.oneLine_intercalate (by decide) each)
  intro line listed
  rcases List.mem_append.mp listed with fixed | added
  · rcases List.mem_cons.mp fixed with rfl | described
    · decide
    · obtain ⟨v, -, rfl⟩ := List.mem_map.mp described
      exact help v
  · split at added
    · cases added
    · rcases List.mem_cons.mp added with rfl | last
      · decide
      · exact List.mem_singleton.mp last ▸ shortcuts

/-! ### What is shown as it stands -/

/-- All texts of the payload are of one line, but for those that are wrapped and for what a listing says about its
entries besides their names. -/
inductive Payload.Tidy : Payload → Prop where
  | echo {prompt input : String} (place : OneLine prompt) (typed : OneLine input) : Tidy (.echo prompt input)
  | text (text : String) : Tidy (.text text)
  | lines {lines : List String} (each : ∀ line ∈ lines, OneLine line) : Tidy (.lines lines)
  | listing (path : String) {entries : List Entry} (enriched : Bool) (named : ∀ e ∈ entries, OneLine e.name) :
      Tidy (.listing path entries enriched)
  | content {name : String} (named : OneLine name) (content : Content) : Tidy (.content name content)
  | diagnostic (kind : DiagnosticKind) {message : String} (oneLine : OneLine message) : Tidy (.diagnostic kind message)

namespace Session

variable {s : Session} {input line : String} {command : CommandLine} {e : Effect} {err : ShellError}

theorem tidy_of_list {args : String} (works : s.listEffect args = .ok e) : ∀ p ∈ e.payloads, p.Tidy := by
  rw [listEffect] at works
  split at works
  · rename_i entries listed
    cases works
    exact List.forall_mem_singleton.mpr (.listing _ false (ContentTree.oneLine_of_listing listed))
  · cases works
    exact List.forall_mem_singleton.mpr (.text _)
  · cases works

theorem tidy_of_change {args : String} (works : s.changeEffect args = .ok e) : ∀ p ∈ e.payloads, p.Tidy := by
  rw [changeEffect] at works
  split at works
  · cases works
    exact List.forall_mem_singleton.mpr (.text _)
  · cases works

theorem tidy_of_read {verb : Verb} {args : String} (works : s.readEffect verb args = .ok e) :
    ∀ p ∈ e.payloads, p.Tidy := by
  rw [readEffect] at works
  split at works
  · cases works
  · split at works
    · rename_i label content link found
      cases works
      unfold fileEffect
      split
      · exact List.forall_mem_singleton.mpr (.text _)
      · exact List.forall_mem_singleton.mpr (.content (ContentTree.oneLine_of_lookup_file found) content)
    · cases works

theorem tidy_of_section {word : String} (works : s.sectionEffect word line = .ok e) : ∀ p ∈ e.payloads, p.Tidy := by
  rw [sectionEffect] at works
  split at works
  · cases works
  · rename_i name named
    split at works
    · rename_i entries listed
      cases works
      intro p member
      rcases List.mem_append.mp member with described | overview
      · obtain ⟨text, -, rfl⟩ := Option.map_eq_some_iff.mp (Option.mem_toList.mp described)
        exact .text text
      · rw [List.mem_singleton.mp overview]
        exact .listing _ true (ContentTree.oneLine_of_listing listed)
    · cases works

theorem tidy_of_history (kept : ∀ line ∈ s.history.entries, OneLine line) (args : String) :
    ∀ p ∈ (s.historyEffect args).payloads, p.Tidy := by
  refine List.forall_mem_singleton.mpr (.lines fun line listed => ?_)
  split at listed
  · obtain ⟨i, inside, rfl⟩ := List.mem_mapIdx.mp listed
    exact ((Text.oneLine_padLeft 4 (Text.oneLine_number (i + 1))).append (by decide)).append
      (kept _ (List.getElem_mem inside))
  · exact kept line (List.mem_reverse.mp (List.mem_of_mem_filter listed))

theorem tidy_of_effect (kept : ∀ line ∈ s.history.entries, OneLine line) (works : s.effect command line = .ok e) :
    ∀ p ∈ e.payloads, p.Tidy := by
  cases spelled : Verb.ofWord? command.word with
  | none =>
    rw [effect, spelled] at works
    exact tidy_of_section works
  | some verb =>
    rw [effect_of_verb spelled] at works
    cases verb with
    | help =>
      cases works
      exact List.forall_mem_singleton.mpr (.lines (Verb.oneLine_of_mem_menu ContentTree.oneLine_of_mem_sections))
    | clear =>
      cases works
      exact fun _ none => absurd none List.not_mem_nil
    | pwd =>
      cases works
      exact List.forall_mem_singleton.mpr (.text _)
    | ls => exact tidy_of_list works
    | cd => exact tidy_of_change works
    | cat => exact tidy_of_read works
    | openLink => exact tidy_of_read works
    | history =>
      cases works
      exact tidy_of_history kept command.args

/-- An error names a verb and quotes the argument, or it quotes the line. -/
theorem error_of_effect (fails : s.effect command line = .error err) :
    (∃ verb : Verb, err = .noSuchDirectory verb.name command.args ∨ err = .noSuchFile verb.name command.args ∨
      err = .missingFileArgument verb.name) ∨ err = .commandNotFound line := by
  have read {verb : Verb} (fails : s.readEffect verb command.args = .error err) :
      err = .noSuchFile verb.name command.args ∨ err = .missingFileArgument verb.name := by
    rw [readEffect] at fails
    split at fails
    · exact .inr (Except.error.inj fails).symm
    · split at fails
      · cases fails
      · exact .inl (Except.error.inj fails).symm
  cases spelled : Verb.ofWord? command.word with
  | none =>
    rw [effect, spelled] at fails
    simp only [sectionEffect] at fails
    split at fails
    · exact .inr (Except.error.inj fails).symm
    · split at fails
      · cases fails
      · exact .inr (Except.error.inj fails).symm
  | some verb =>
    rw [effect_of_verb spelled] at fails
    refine .inl ⟨verb, ?_⟩
    cases verb with
    | help | clear | pwd | history => cases fails
    | ls =>
      simp only [effectOf, listEffect] at fails
      split at fails
      · cases fails
      · cases fails
      · exact .inl (Except.error.inj fails).symm
    | cd =>
      simp only [effectOf, changeEffect] at fails
      split at fails
      · cases fails
      · exact .inl (Except.error.inj fails).symm
    | cat => exact .inr (read fails)
    | openLink => exact .inr (read fails)

theorem oneLine_message (whole : OneLine line) (argument : OneLine command.args)
    (fails : s.effect command line = .error err) : OneLine err.message := by
  rcases error_of_effect fails with ⟨v, rfl | rfl | rfl⟩ | rfl
  · exact (v.oneLine_name.append (by decide)).append argument
  · exact (v.oneLine_name.append (by decide)).append argument
  · exact v.oneLine_name.append (by decide)
  · exact (by decide : OneLine "command not found: ").append whole

/-! ### Runs -/

theorem oneLine_of_mem_history {tree : ContentTree} {config : Config} {actions : List Action}
    (typed : ∀ line, .submit line ∈ actions → OneLine line) :
    ∀ line ∈ ((start tree config).after actions).history.entries, OneLine line := by
  have follows := (follows_after (s := start tree config) History.follows_empty actions).2
  intro line listed
  rw [follows.entries, Walk.lines_after] at listed
  obtain ⟨a, given, entered⟩ := List.mem_filterMap.mp listed
  cases a with
  | submit input =>
    rw [Action.entered?] at entered
    split at entered
    · cases entered
    · cases entered
      exact (typed input given).trimmed
  | _ => cases entered

/-- Whatever a line without line feeds leaves in the log is tidy, in a session with such lines only. -/
theorem tidy_submit (sound : s.log.WellNumbered) (here : s.tree.isDirectory s.location = true)
    (kept : ∀ line ∈ s.history.entries, OneLine line) (typed : OneLine input) :
    ∀ r ∈ (s.submit input).1.records, r.payload.Tidy := by
  have place : OneLine s.prompt := Location.oneLine_toText (ContentTree.isEntryName_of_isDirectory here)
  have echo : (Payload.echo s.prompt input).Tidy := .echo place typed
  have entered : ∀ line ∈ (s.entered input).history.entries, OneLine line := by
    rw [Session.entered, History.entries_add]
    exact List.forall_mem_append.mpr ⟨kept, List.forall_mem_singleton.mpr typed.trimmed⟩
  have numbered {payloads : List Payload} (each : ∀ p ∈ payloads, p.Tidy) :
      ∀ r ∈ OutputLog.numbered s.log.lastId payloads, r.payload.Tidy := fun r member =>
    each _ (OutputLog.payloads_numbered s.log.lastId payloads ▸ List.mem_map_of_mem member)
  cases s.handling input with
  | blank nothing =>
    rw [records_of_blank sound nothing]
    exact numbered (List.forall_mem_singleton.mpr echo)
  | fails parsed result =>
    rw [records_of_error sound parsed result]
    have message := oneLine_message typed.trimmed (typed.trimmed.args parsed) result
    exact numbered (List.forall_mem_cons.mpr ⟨echo, List.forall_mem_singleton.mpr (.diagnostic _ message)⟩)
  | @works command e parsed result =>
    have kept (keeps : e.clears = false) : ∀ r ∈ (s.submit input).1.records, r.payload.Tidy := by
      rw [records_of_ok sound parsed result keeps]
      exact numbered (List.forall_mem_cons.mpr ⟨echo, tidy_of_effect entered result⟩)
    cases achieves_of_effect result with
    | wipes verb =>
      rw [records_of_wipes parsed result]
      exact fun _ none => absurd none List.not_mem_nil
    | _ => exact kept rfl

end Session

/-! ### Rendering -/

namespace Payload

variable {p : Payload} {width : Nat} {symbol : String}

/-- Some line of the payload on the screen has a line feed. -/
def Breaks (p : Payload) (width : Nat) (symbol : String) : Prop := ∃ line ∈ p.render width symbol, ¬ OneLine line

theorem not_breaks_of_oneLine (each : ∀ line ∈ p.render width symbol, OneLine line) : ¬ p.Breaks width symbol :=
  fun ⟨line, listed, feed⟩ => feed (each line listed)

theorem breaks_listing_iff (path : String) (entries : List Entry) (enriched : Bool) :
    (listing path entries enriched).Breaks width symbol ↔
      ∃ e ∈ entries, FeedShown (entries.map (Entry.cells enriched)) width (e.cells enriched) := by
  have rows : (∃ row ∈ entries.map (Entry.cells enriched), FeedShown (entries.map (Entry.cells enriched)) width row) ↔
      ∃ e ∈ entries, FeedShown (entries.map (Entry.cells enriched)) width (e.cells enriched) := by
    simp only [List.mem_map, exists_exists_and_eq_and]
  rw [Breaks, render, renderListing]
  by_cases none : entries = []
  · subst none
    simp [Text.OneLine.styled (by decide : OneLine "(empty)") .dim]
  · rw [if_neg none, ← rows, ← Text.feed_mem_cut_line_iff]
    simp only [OneLine, not_not]

/-- What is tidy breaks only in a listing, where a description or a preview does. -/
theorem Tidy.breaks_iff (tidy : p.Tidy) (oneLine : OneLine symbol) : p.Breaks width symbol ↔
    ∃ path entries enriched, p = .listing path entries enriched ∧
      ∃ e ∈ entries, FeedShown (entries.map (Entry.cells enriched)) width (e.cells enriched) := by
  have never (other : ∀ path entries enriched, p ≠ .listing path entries enriched)
      (each : ∀ line ∈ p.render width symbol, OneLine line) : p.Breaks width symbol ↔
      ∃ path entries enriched, p = .listing path entries enriched ∧
        ∃ e ∈ entries, FeedShown (entries.map (Entry.cells enriched)) width (e.cells enriched) :=
    iff_of_false (not_breaks_of_oneLine each) fun ⟨path, entries, enriched, same, _⟩ => other path entries enriched same
  cases tidy with
  | @echo prompt input place typed =>
    refine never (fun _ _ _ same => by cases same) (List.forall_mem_singleton.mpr ?_)
    exact ((((place.styled .cyan).append (by decide)).append oneLine).append (by decide)).append typed
  | text text => exact never (fun _ _ _ same => by cases same) fun line listed => Text.oneLine_of_mem_wrap listed
  | lines each => exact never (fun _ _ _ same => by cases same) each
  | @listing path entries enriched named =>
    rw [breaks_listing_iff]
    constructor
    · exact fun shown => ⟨path, entries, enriched, rfl, shown⟩
    · rintro ⟨_, _, _, same, shown⟩
      cases same
      exact shown
  | @content name named content =>
    refine never (fun _ _ _ same => by cases same) (List.forall_mem_cons.mpr ⟨named.styled .bold, ?_⟩)
    cases content with
    | text text => exact fun line listed => Text.oneLine_of_mem_wrap listed
    | rich value => exact fun line listed => Text.not_mem_of_mem_lines listed
  | diagnostic kind message =>
    exact never (fun _ _ _ same => by cases same) (List.forall_mem_singleton.mpr (message.styled .red))

end Payload

/-- A line feed that a row shows is one of the description or, in an overview, of the preview. -/
theorem Entry.feed_of_shown {rows : List (List String)} {width : Nat} {e : Entry} {enriched : Bool}
    (named : OneLine e.name) (shown : FeedShown rows width (e.cells enriched)) :
    ¬ OneLine (e.description.getD "") ∨ enriched = true ∧ ¬ OneLine (e.preview.getD "") := by
  obtain ⟨n, ⟨j, q, cell, here, held, -⟩, -⟩ := shown
  have feed : ¬ OneLine cell := not_not.mpr (List.mem_of_getElem? held)
  have display : OneLine e.displayName := by
    rw [Entry.displayName]
    split
    · exact ((by decide : OneLine "📁 ").append named).append (by decide)
    · exact (by decide : OneLine "📄 ").append named
  have cell_cases := List.mem_of_getElem? here
  cases enriched with
  | false =>
    simp only [Entry.cells, Bool.false_eq_true, if_false, List.append_nil, List.mem_cons, List.not_mem_nil, or_false] at cell_cases
    rcases cell_cases with rfl | rfl
    · exact absurd display feed
    · exact .inl feed
  | true =>
    simp only [Entry.cells, if_true, List.cons_append, List.nil_append, List.mem_cons, List.not_mem_nil, or_false] at cell_cases
    rcases cell_cases with rfl | rfl | rfl
    · exact absurd display feed
    · exact .inl feed
    · exact .inr ⟨rfl, feed⟩

namespace Session

/-- In a session with lines of one line, a line on the screen has a line feed only where a listing shows one of a
description or, in an overview, of a preview; and it has one there exactly when some character that is no blank
follows it in the row, and the row fits the width or is cut behind it. -/
theorem line_feed_shown_iff (tree : ContentTree) (config : Config) (actions : List Action) (input : String)
    (typed : ∀ line, .submit line ∈ actions ++ [.submit input] → OneLine line) (symbol : String)
    (plain : OneLine symbol) (width : Nat) :
    ∀ r ∈ (((start tree config).after actions).submit input).1.records,
      ((∃ line ∈ r.payload.render width symbol, ¬ OneLine line) ↔
        ∃ path entries enriched, r.payload = .listing path entries enriched ∧
          ∃ e ∈ entries, (¬ OneLine (e.description.getD "") ∨ enriched = true ∧ ¬ OneLine (e.preview.getD "")) ∧
            FeedShown (entries.map (Entry.cells enriched)) width (e.cells enriched)) := by
  intro r member
  have before : ∀ line, .submit line ∈ actions → OneLine line := fun line given =>
    typed line (List.mem_append_left _ given)
  have here : ((start tree config).after actions).tree.isDirectory ((start tree config).after actions).location = true := by
    rw [tree_after]
    exact isDirectory_after tree config actions
  have tidy : r.payload.Tidy := tidy_submit (wellNumbered_after tree config actions) here
    (oneLine_of_mem_history before) (typed input (List.mem_append_right _ List.mem_cons_self)) r member
  rw [← Payload.Breaks, tidy.breaks_iff plain]
  refine exists_congr fun path => exists_congr fun entries => exists_congr fun enriched => and_congr_right fun listing => ?_
  have named : ∀ e ∈ entries, OneLine e.name := by
    rw [listing] at tidy
    cases tidy with
    | listing path enriched named => exact named
  exact exists_congr fun e => and_congr_right fun listed =>
    (and_iff_right_of_imp (Entry.feed_of_shown (named e listed))).symm

/-- A tree with a directory that is described on two lines. -/
def notedTree : ContentTree := ⟨Node.ofChildren "" [(Node.ofChildren "a" []).describedAs "one\ntwo"], by decide⟩

theorem line_feed_shown_in_sample :
    (∀ line, .submit line ∈ [Action.submit "pwd"] ++ [.submit "ls"] → OneLine line) ∧ OneLine "$" ∧
      ∀ r ∈ (((start notedTree .default).after [.submit "pwd"]).submit "ls").1.records,
        ((∃ line ∈ r.payload.render 80 "$", ¬ OneLine line) ↔
          ∃ path entries enriched, r.payload = .listing path entries enriched ∧
            ∃ e ∈ entries, (¬ OneLine (e.description.getD "") ∨ enriched = true ∧ ¬ OneLine (e.preview.getD "")) ∧
              FeedShown (entries.map (Entry.cells enriched)) 80 (e.cells enriched)) := by
  have typed : ∀ line, .submit line ∈ [Action.submit "pwd"] ++ [.submit "ls"] → OneLine line := by
    simp only [List.cons_append, List.nil_append, List.mem_cons, List.not_mem_nil, or_false]
    rintro line (same | same) <;> cases same <;> decide
  exact ⟨typed, by decide, line_feed_shown_iff notedTree .default [.submit "pwd"] "ls" typed "$" (by decide) 80⟩

/-- A description of two lines takes two lines of the screen. -/
theorem described_entry_breaks_line :
    OneLine "ls" ∧ OneLine "$" ∧ ∃ r ∈ ((start notedTree .default).submit "ls").1.records,
      ∃ line ∈ r.payload.render 80 "$", ¬ OneLine line := by
  decide +kernel

end Session

end PortfolioShell
