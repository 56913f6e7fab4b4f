import PortfolioShell.Proofs.Shell.Commands
import PortfolioShell.Proofs.Shell.Whereabouts
import PortfolioShell.Proofs.Tree.Paths

/-! # Addresses

Every node of a content tree has an address, the path from the root along the names on the way to it. In
whatever state the session is, the commands find exactly that node under it. -/

namespace PortfolioShell.Session

variable {s : Session} {n : Node} {positions : List Nat} {names : List String}

theorem says_homePath (verb : Verb) (named : ∀ name ∈ names, EntryName name) :
    Says (verb.name ++ " " ++ Location.homePath ⟨names⟩) verb (Location.homePath ⟨names⟩) :=
  says_argument verb (Location.homePath_ne_empty ⟨names⟩) (.of_solid (Location.solid_homePath (m := ⟨names⟩) named))

/-- Under the path from the root along the names on the way to it, a file is shown and a directory is entered
and listed, in every state that a session can be in. -/
theorem home_path_addresses_node (tree : ContentTree) (config : Config) (actions : List Action)
    (reached : tree.root.Reaches positions names n) :
    let s := (start tree config).after actions
    let path := Location.homePath ⟨names⟩
    s.location.resolve path = ⟨names⟩ ∧ tree.lookup ⟨names⟩ = some n ∧
    match n with
    | .file label content _ =>
      (s.submit ("cat " ++ path)).1.hasDiagnostic = false ∧
      (s.submit ("cat " ++ path)).1.records.map Record.payload =
        [.echo s.prompt ("cat " ++ path), .content label.name content]
    | .directory _ children =>
      ((s.submit ("cd " ++ path)).1.hasDiagnostic = false ∧ (s.submit ("cd " ++ path)).2.location = ⟨names⟩) ∧
      (s.submit ("ls " ++ path)).1.hasDiagnostic = false ∧
      ∃ rows, List.Forall₂ Entry.IsRow rows children ∧
        (s.submit ("ls " ++ path)).1.records.map Record.payload =
          [.echo s.prompt ("ls " ++ path), .listing (Location.toText ⟨names⟩) rows false] := by
  intro s path
  have sound : s.log.WellNumbered := wellNumbered_after tree config actions
  have same : s.tree = tree := tree_after (start tree config) actions
  have found : tree.lookup ⟨names⟩ = some n := ContentTree.lookup_of_reaches reached
  have named : ∀ name ∈ names, EntryName name := fun name member =>
    isEntryName_iff.mp ((tree.wellNamed_root.descend? found).1 name member)
  have target : s.location.resolve path = ⟨names⟩ := Location.resolve_homePath (m := ⟨names⟩) named s.location
  have given : path ≠ "" := Location.homePath_ne_empty ⟨names⟩
  have there : s.tree.lookup (s.location.resolve path) = some n := by rw [same, target, found]
  refine ⟨target, found, ?_⟩
  cases n with
  | file label content link =>
    have said : Says ("cat " ++ path) .cat path := says_homePath .cat named
    obtain ⟨outcome, -⟩ := submit_read sound (.inl rfl) said given there
    have shown : (s.submit ("cat " ++ path)).1 = ⟨OutputLog.numbered s.log.lastId
        [.echo s.prompt ("cat " ++ path), .content label.name content], []⟩ := outcome
    rw [shown, hasDiagnostic_numbered, OutputLog.payloads_numbered]
    exact ⟨rfl, rfl⟩
  | directory label children =>
    have destination : s.destination path = ⟨names⟩ := by rw [Session.destination, if_neg given, target]
    have directory : s.tree.isDirectory (s.destination path) = true := by
      rw [destination, same]
      exact ContentTree.isDirectory_iff.mpr ⟨_, found, rfl⟩
    have goes : Says ("cd " ++ path) .cd path := says_homePath .cd named
    have lists : Says ("ls " ++ path) .ls path := says_homePath .ls named
    obtain ⟨entered, place⟩ := submit_change sound goes (by rw [directory, Bool.or_true])
    have listed := submit_list sound lists there
    rw [entered, listed, place, hasDiagnostic_numbered, hasDiagnostic_numbered, OutputLog.payloads_numbered, target]
    exact ⟨⟨rfl, destination⟩, rfl, _, Entry.areRows_iff.mpr rfl, rfl⟩

theorem home_path_addresses_sample_nodes :
    let s := (start Sample.tree .default).after [.submit "contact", .submit "open nothing", .recallPrevious]
    s.location = ⟨["contact"]⟩ ∧
      (s.submit "cat ~/projects/archive/ascii-invaders").1.records.map Record.payload =
        [.echo s.prompt "cat ~/projects/archive/ascii-invaders",
          .content "ascii-invaders" (.text "A terminal shoot-'em-up from my first summer of Rust.")] ∧
      (s.submit "cd ~/projects").2.location = ⟨["projects"]⟩ ∧
      (s.submit "ls ~/projects").1.records.map Record.payload =
        [.echo s.prompt "ls ~/projects", .listing "/projects"
          [⟨"epicwars-cvc", .file, some "Multiplayer card battler",
              some "Real-time card game with a deterministic rules engine"⟩,
            ⟨"pixel-forge", .file, some "Sprite editor", some "Layered pixel-art editor"⟩,
            ⟨"terminal-folio", .file, some "Interactive portfolio shell", some "You are looking at it"⟩,
            ⟨"archive", .directory, some "Older work", some "Retired projects"⟩] false] := by
  intro s
  let file := Node.file ⟨"ascii-invaders", some "Retired side project", none⟩
    (.text "A terminal shoot-'em-up from my first summer of Rust.") none
  let archive := Node.directory ⟨"archive", some "Older work", some "Retired projects"⟩ [file]
  have toProjects : Sample.tree.root.Reaches [0] ["projects"] Sample.projects :=
    .down (c := Sample.projects) rfl (.here Sample.projects)
  have toFile : Sample.tree.root.Reaches [0, 3, 0] ["projects", "archive", "ascii-invaders"] file :=
    .down (c := Sample.projects) rfl (.down (c := archive) rfl (.down (c := file) rfl (.here file)))
  have projectsPath : Location.homePath ⟨["projects"]⟩ = "~/projects" := by decide
  have filePath : Location.homePath ⟨["projects", "archive", "ascii-invaders"]⟩ =
      "~/projects/archive/ascii-invaders" := by decide
  obtain ⟨-, -, -, shown⟩ := home_path_addresses_node Sample.tree .default
    [.submit "contact", .submit "open nothing", .recallPrevious] toFile
  obtain ⟨-, -, ⟨-, entered⟩, -, rows, given, listed⟩ := home_path_addresses_node Sample.tree .default
    [.submit "contact", .submit "open nothing", .recallPrevious] toProjects
  rw [filePath] at shown
  rw [projectsPath] at entered listed
  obtain rfl := Entry.areRows_iff.mp given
  exact ⟨by decide +kernel, shown, entered, listed⟩

end PortfolioShell.Session
