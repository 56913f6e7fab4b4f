import PortfolioShell.Proofs.Shell.Verbs
import PortfolioShell.Proofs.Tree.Paths
import PortfolioShell.Tree.Sample

/-! # Where a session can be

Two commands move a session, `cd` and the name of a section, and both check that there is a directory before
they move. So a session is in a directory of its tree after every run, and from there one can always list,
go up and go home. -/

namespace PortfolioShell

namespace Session

variable {s : Session} {input : String}

theorem Achieves.isDirectory {command : CommandLine} {e : Effect} (done : s.Achieves command e)
    (here : s.tree.isDirectory s.location = true) : s.tree.isDirectory e.location = true := by
  cases done with
  | shows verb plain => exact here
  | wipes verb => exact here
  | opens verb found => exact here
  | moves verb passes =>
    rcases Bool.or_eq_true_iff.mp passes with home | there
    · have target : (s.destination command.args).segments = [] := List.isEmpty_iff.mp home
      exact ContentTree.isDirectory_of_prefix here (target ▸ List.nil_prefix)
    · exact there
  | visits verb named listed =>
    obtain ⟨label, children, found, -⟩ := ContentTree.listing_eq_entries_iff.mp listed
    exact ContentTree.isDirectory_iff.mpr ⟨_, found, rfl⟩

theorem isDirectory_submit (here : s.tree.isDirectory s.location = true) (input : String) :
    (s.submit input).2.tree.isDirectory (s.submit input).2.location = true :=
  submit_keeps (P := fun after => after.tree.isDirectory after.location = true) here
    (fun _ _ done => done.isDirectory here) (fun _ => here)

theorem isDirectory_after (tree : ContentTree) (config : Config) (actions : List Action) :
    tree.isDirectory ((start tree config).after actions).location = true := by
  have kept : ∀ s : Session, s = (start tree config).after actions → s.tree.isDirectory s.location = true := by
    rintro s rfl
    exact after_keeps (P := fun s => s.tree.isDirectory s.location = true)
      (fun _ line here => isDirectory_submit here line) (fun _ _ here => here) actions
      (ContentTree.isDirectory_iff.mpr ⟨tree.root, rfl, tree.isDirectory_root⟩)
  have here := kept _ rfl
  rwa [tree_after] at here

/-! ### Listing and moving -/

theorem listEffect_of_directory {args : String} {label : Label} {children : List Node}
    (found : s.tree.lookup (s.location.resolve args) = some (.directory label children)) :
    s.listEffect args =
      .ok (s.shows [.listing (s.location.resolve args).toText (children.map Entry.ofNode) false]) := by
  rw [listEffect, ContentTree.listing_eq_entries_iff.mpr ⟨label, children, found, rfl⟩]

theorem submit_list (sound : s.log.WellNumbered) {args : String} (said : Says input .ls args)
    {label : Label} {children : List Node}
    (found : s.tree.lookup (s.location.resolve args) = some (.directory label children)) :
    (s.submit input).1 = ⟨OutputLog.numbered s.log.lastId [.echo s.prompt input,
      .listing (s.location.resolve args).toText (children.map Entry.ofNode) false], []⟩ := by
  exact (submit_of_effectOf_ok sound said (by decide) (listEffect_of_directory found) rfl).1

theorem submit_change (sound : s.log.WellNumbered) {args : String} (said : Says input .cd args)
    (passes : ((s.destination args).isRoot || s.tree.isDirectory (s.destination args)) = true) :
    (s.submit input).1 = ⟨OutputLog.numbered s.log.lastId [.echo s.prompt input,
      .text ("Changed directory to " ++ (s.destination args).toText)], s.followRequests (s.destination args)⟩ ∧
    (s.submit input).2.location = s.destination args := by
  have moves : s.effectOf args .cd = .ok (s.moves (s.destination args)) := by
    rw [effectOf, changeEffect, passes, if_pos rfl]
  exact submit_of_effectOf_ok sound said (by decide) moves rfl

/-- After every run the session is in a directory of the tree, all places on the way to it are directories,
and the names on the way are entry names. So the children of the place can be listed, in their order, and
going up and going home succeed. -/
theorem in_directory_after_run (tree : ContentTree) (config : Config) (actions : List Action) :
    let s := (start tree config).after actions
    (∀ l : Location, l.segments <+: s.location.segments → tree.isDirectory l = true) ∧
    (∀ name ∈ s.location.segments, isEntryName name = true) ∧
    (∃ label children rows, tree.lookup s.location = some (.directory label children) ∧
      List.Forall₂ Entry.IsRow rows children ∧
      ∀ input, Says input .ls "" →
        (s.submit input).1.hasDiagnostic = false ∧
        (s.submit input).1.records.map Record.payload = [.echo s.prompt input, .listing s.prompt rows false]) ∧
    (∀ input, Says input .cd ".." →
      (s.submit input).1.hasDiagnostic = false ∧ (s.submit input).2.location = s.location.parent) ∧
    (∀ input, Says input .cd "~" →
      (s.submit input).1.hasDiagnostic = false ∧ (s.submit input).2.location = .root) := by
  intro s
  have here : tree.isDirectory s.location = true := isDirectory_after tree config actions
  have sound : s.log.WellNumbered := wellNumbered_after tree config actions
  have same : s.tree = tree := tree_after (start tree config) actions
  obtain ⟨n, found, directory⟩ := ContentTree.isDirectory_iff.mp here
  refine ⟨fun l above => ContentTree.isDirectory_of_prefix here above,
    ContentTree.isEntryName_of_isDirectory here, ?_, ?_, ?_⟩
  · cases n with
    | file label content link => cases directory
    | directory label children =>
      refine ⟨label, children, _, found, Entry.areRows_iff.mpr rfl, fun input said => ?_⟩
      have lookup : s.tree.lookup (s.location.resolve "") = some (.directory label children) := by
        rw [same, Location.resolve_empty, found]
      have listed := submit_list sound said lookup
      rw [listed, hasDiagnostic_numbered, OutputLog.payloads_numbered, Location.resolve_empty]
      exact ⟨rfl, rfl⟩
  · intro input said
    have target : s.destination ".." = s.location.parent := s.location.resolve_up
    have above : s.tree.isDirectory s.location.parent = true := by
      rw [same]
      exact ContentTree.isDirectory_of_prefix here (List.dropLast_prefix _)
    obtain ⟨outcome, moved⟩ := submit_change sound said (by rw [target, above, Bool.or_true])
    rw [outcome, hasDiagnostic_numbered, moved, target]
    exact ⟨rfl, rfl⟩
  · intro input said
    have target : s.destination "~" = .root := s.location.resolve_home
    obtain ⟨outcome, moved⟩ := submit_change sound said (by rw [target]; rfl)
    rw [outcome, hasDiagnostic_numbered, moved, target]
    exact ⟨rfl, rfl⟩

theorem in_directory_after_sample_run :
    let s := (start Sample.tree .default).after
      [.submit "skills", .submit "cd ~/projects//archive/", .submit "cat nothing", .recallPrevious, .suggest "o"]
    s.location = ⟨["projects", "archive"]⟩ ∧ Sample.tree.isDirectory ⟨["projects"]⟩ = true ∧
      isEntryName "archive" = true ∧
      (s.submit " DIR ").1.records.map Record.payload =
        [.echo s.prompt " DIR ",
          .listing s.prompt [⟨"ascii-invaders", .file, some "Retired side project", none⟩] false] ∧
      (s.submit "cd ..").2.location = ⟨["projects"]⟩ ∧ (s.submit "cd\t~").2.location = .root := by
  intro s
  have place : s.location = ⟨["projects", "archive"]⟩ := by decide +kernel
  obtain ⟨above, named, ⟨label, children, rows, found, given, lists⟩, up, home⟩ := in_directory_after_run
    Sample.tree .default [.submit "skills", .submit "cd ~/projects//archive/", .submit "cat nothing", .recallPrevious, .suggest "o"]
  obtain ⟨-, rfl⟩ : label = ⟨"archive", some "Older work", some "Retired projects"⟩ ∧
      children = [.file ⟨"ascii-invaders", some "Retired side project", none⟩
        (.text "A terminal shoot-'em-up from my first summer of Rust.") none] :=
    Node.directory.inj (Option.some.inj ((place ▸ found).symm.trans rfl))
  obtain rfl : rows = [⟨"ascii-invaders", .file, some "Retired side project", none⟩] := Entry.areRows_iff.mp given
  refine ⟨place, above ⟨["projects"]⟩ (place ▸ by decide), named "archive" (place ▸ by decide),
    (lists " DIR " ⟨⟨"DIR", ""⟩, by decide, by decide, rfl⟩).2, ?_,
    (home "cd\t~" ⟨⟨"cd", "~"⟩, by decide, by decide, rfl⟩).2⟩
  rw [(up "cd .." ⟨⟨"cd", ".."⟩, by decide, by decide, rfl⟩).2, place]
  rfl

end Session

end PortfolioShell
