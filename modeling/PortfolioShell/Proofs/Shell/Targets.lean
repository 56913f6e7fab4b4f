import PortfolioShell.Proofs.Shell.Commands
import PortfolioShell.Proofs.Shell.Whereabouts

/-! # Targets of paths

Four verbs take a path, and each of them finds out in its own way what is there: `ls` asks for the listing,
`cd` lets the root pass and asks for a directory else, `cat` and `open` look for a file. The main statement,
`treats_iff_target`, says that they agree: they treat the path in one of three ways, and that way is the one
of the node to which the path leads. -/

namespace PortfolioShell

/-- What is at a place. -/
inductive Target where
  | directory (entries : List Entry)
  | file (name : String) (content : Content) (link : Option String)
  | missing

def ContentTree.target (tree : ContentTree) (l : Location) : Target :=
  match tree.lookup l with
  | some (.directory _ children) => .directory (children.map Entry.ofNode)
  | some (.file label content link) => .file label.name content link
  | none => .missing

namespace Session

/-- What the four verbs do with the path of a target. -/
inductive Treats (s : Session) (path : String) : Target → Prop where
  | directory {entries : List Entry}
      (lists : s.Shows ("ls " ++ path) [.listing (s.location.resolve path).toText entries false])
      (enters : s.Shows ("cd " ++ path) [.text ("Changed directory to " ++ (s.location.resolve path).toText)])
      (moves : (s.submit ("cd " ++ path)).2.location = s.location.resolve path)
      (unread : s.Shows ("cat " ++ path) [.diagnostic .lookup ("cat: no such file: " ++ path)])
      (unopened : s.Shows ("open " ++ path) [.diagnostic .lookup ("open: no such file: " ++ path)]) :
      Treats s path (.directory entries)
  | file {name : String} {content : Content} {link : Option String}
      (lists : s.Shows ("ls " ++ path) [.text ("ls: " ++ path ++ ": not a directory")])
      (unentered : s.Shows ("cd " ++ path) [.diagnostic .navigation ("cd: no such directory: " ++ path)])
      (reads : s.Shows ("cat " ++ path) [.content name content])
      (opens : match link with
        | some uri => (s.submit ("open " ++ path)).1.requests = [.openExternal uri] ∧
            (s.submit ("open " ++ path)).1.hasDiagnostic = false
        | none => (s.submit ("open " ++ path)).1.requests = [] ∧ s.Shows ("open " ++ path) [.content name content]) :
      Treats s path (.file name content link)
  | missing
      (unlisted : s.Shows ("ls " ++ path) [.diagnostic .navigation ("ls: no such directory: " ++ path)])
      (unentered : s.Shows ("cd " ++ path) [.diagnostic .navigation ("cd: no such directory: " ++ path)])
      (unread : s.Shows ("cat " ++ path) [.diagnostic .lookup ("cat: no such file: " ++ path)])
      (unopened : s.Shows ("open " ++ path) [.diagnostic .lookup ("open: no such file: " ++ path)]) :
      Treats s path .missing

variable {s : Session} {path : String}

/-! ### One way at most -/

theorem Shows.unique {input : String} {payloads others : List Payload} (shown : s.Shows input payloads)
    (again : s.Shows input others) : payloads = others :=
  (List.cons.inj (shown.symm.trans again)).2

theorem Treats.unique {t u : Target} (one : s.Treats path t) (other : s.Treats path u) : t = u := by
  cases one with
  | directory lists enters moves unread unopened =>
    cases other with
    | directory lists' => cases lists.unique lists'; rfl
    | file lists' => cases lists.unique lists'
    | missing unlisted => cases lists.unique unlisted
  | @file name content link lists unentered reads opens =>
    cases other with
    | directory lists' => cases lists.unique lists'
    | missing unlisted => cases lists.unique unlisted
    | @file name' content' link' lists' unentered' reads' opens' =>
      cases reads.unique reads'
      -- `open` tells one link from another, and from none, by what it requests
      cases link with
      | none =>
        cases link' with
        | none => rfl
        | some uri => cases opens.1.symm.trans opens'.1
      | some uri =>
        cases link' with
        | none => cases opens.1.symm.trans opens'.1
        | some uri' => cases opens.1.symm.trans opens'.1; rfl
  | missing unlisted unentered unread unopened =>
    cases other with
    | directory lists => cases unlisted.unique lists
    | file lists => cases unlisted.unique lists
    | missing => rfl

/-! ### The way of the node -/

theorem isRoot_or_isDirectory_eq_false {tree : ContentTree} {l : Location}
    (other : ∀ label children, tree.lookup l ≠ some (.directory label children)) :
    (l.isRoot || tree.isDirectory l) = false := by
  have below : tree.isDirectory l = false := by
    refine eq_false_of_ne_true fun there => ?_
    obtain ⟨n, found, kind⟩ := ContentTree.isDirectory_iff.mp there
    cases n with
    | directory label children => exact other label children found
    | file label content link => cases kind
  -- the root is let pass unseen, but it is a directory
  have notRoot : l.isRoot = false := by
    refine eq_false_of_ne_true fun home => ?_
    have nothing : l.segments = [] := List.isEmpty_iff.mp home
    have root : tree.isDirectory l = true :=
      ContentTree.isDirectory_iff.mpr ⟨tree.root, by rw [ContentTree.lookup, nothing]; rfl, tree.isDirectory_root⟩
    rw [below] at root
    cases root
  rw [notRoot, below]
  rfl

section Found

variable {input : String} {verb : Verb} (sound : s.log.WellNumbered) (given : path ≠ "")

include given in
theorem destination_of_ne_empty : s.destination path = s.location.resolve path := by
  rw [destination, if_neg given]

include given in
theorem says_path (ends : Text.Trim path.toList) : Says ("ls " ++ path) .ls path ∧ Says ("cd " ++ path) .cd path ∧
    Says ("cat " ++ path) .cat path ∧ Says ("open " ++ path) .openLink path :=
  ⟨says_argument .ls given ends, says_argument .cd given ends, says_argument .cat given ends,
    says_argument .openLink given ends⟩

include sound given

theorem shows_noSuchFile (reads : verb = .cat ∨ verb = .openLink) (said : Says input verb path)
    (other : ∀ label content link, s.tree.lookup (s.location.resolve path) ≠ some (.file label content link)) :
    s.Shows input [.diagnostic .lookup (ShellError.noSuchFile verb.name path).message] := by
  have fails : s.readEffect verb path = .error (.noSuchFile verb.name path) := by
    rw [readEffect, if_neg given]
    split
    · rename_i label content link found
      exact absurd found (other label content link)
    · rfl
  rcases reads with rfl | rfl
  · exact shows_of_effectOf_error sound said (by decide) fails
  · exact shows_of_effectOf_error sound said (by decide) fails

theorem shows_noSuchDirectory (said : Says input .cd path)
    (other : ∀ label children, s.tree.lookup (s.location.resolve path) ≠ some (.directory label children)) :
    s.Shows input [.diagnostic .navigation (ShellError.noSuchDirectory "cd" path).message] := by
  have fails : s.effectOf path .cd = .error (.noSuchDirectory "cd" path) := by
    rw [effectOf, changeEffect, destination_of_ne_empty given, isRoot_or_isDirectory_eq_false other, if_neg Bool.false_ne_true]
  exact shows_of_effectOf_error sound said (by decide) fails

variable (ends : Text.Trim path.toList)

include ends

theorem treats_directory {label : Label} {children : List Node}
    (found : s.tree.lookup (s.location.resolve path) = some (.directory label children)) :
    s.Treats path (.directory (children.map Entry.ofNode)) := by
  obtain ⟨ls, cd, cat, openLink⟩ := says_path given ends
  have lists : s.effectOf path .ls =
      .ok (s.shows [.listing (s.location.resolve path).toText (children.map Entry.ofNode) false]) :=
    listEffect_of_directory found
  have passes : s.tree.isDirectory (s.location.resolve path) = true :=
    ContentTree.isDirectory_iff.mpr ⟨_, found, rfl⟩
  have moves : s.effectOf path .cd = .ok (s.moves (s.location.resolve path)) := by
    rw [effectOf, changeEffect, destination_of_ne_empty given, passes, Bool.or_true, if_pos rfl]
  have noFile : ∀ label content link, s.tree.lookup (s.location.resolve path) ≠ some (.file label content link) := by
    simp [found]
  refine .directory ?_ ?_ ?_ ?_ ?_
  · exact shows_of_effectOf_ok sound ls (by decide) lists rfl
  · exact shows_of_effectOf_ok sound cd (by decide) moves rfl
  · exact (submit_of_effectOf_ok sound cd (by decide) moves rfl).2
  · exact shows_noSuchFile sound given (.inl rfl) cat noFile
  · exact shows_noSuchFile sound given (.inr rfl) openLink noFile

theorem treats_file {label : Label} {content : Content} {link : Option String}
    (found : s.tree.lookup (s.location.resolve path) = some (.file label content link)) :
    s.Treats path (.file label.name content link) := by
  obtain ⟨ls, cd, cat, openLink⟩ := says_path given ends
  have listing : s.tree.listing (s.location.resolve path) = .notADirectory := by
    rw [ContentTree.listing, found]
    rfl
  have lists : s.effectOf path .ls = .ok (s.shows [.text ("ls: " ++ path ++ ": not a directory")]) := by
    rw [effectOf, listEffect, listing]
  have noDirectory : ∀ label children, s.tree.lookup (s.location.resolve path) ≠ some (.directory label children) := by
    simp [found]
  have reads := readEffect_of_file given found
  have opened := submit_of_effectOf_ok sound openLink (by decide) (reads .openLink) (s.clears_fileEffect _ _ _ _)
  refine .file ?_ ?_ ?_ ?_
  · exact shows_of_effectOf_ok sound ls (by decide) lists rfl
  · exact shows_noSuchDirectory sound given cd noDirectory
  · exact shows_of_effectOf_ok sound cat (by decide) (reads .cat) rfl
  · have requests := congrArg Outcome.requests opened.1
    cases link with
    | none => exact ⟨requests, shows_of_effectOf_ok sound openLink (by decide) (reads .openLink) rfl⟩
    | some uri =>
      have plain := congrArg Outcome.hasDiagnostic opened.1
      rw [hasDiagnostic_numbered] at plain
      exact ⟨requests, plain⟩

theorem treats_missing (nothing : s.tree.lookup (s.location.resolve path) = none) : s.Treats path .missing := by
  obtain ⟨ls, cd, cat, openLink⟩ := says_path given ends
  have listing : s.tree.listing (s.location.resolve path) = .notFound := by
    rw [ContentTree.listing, nothing]
  have lists : s.effectOf path .ls = .error (.noSuchDirectory "ls" path) := by
    rw [effectOf, listEffect, listing]
  have noDirectory : ∀ label children, s.tree.lookup (s.location.resolve path) ≠ some (.directory label children) := by
    simp [nothing]
  have noFile : ∀ label content link, s.tree.lookup (s.location.resolve path) ≠ some (.file label content link) := by
    simp [nothing]
  refine .missing ?_ ?_ ?_ ?_
  · exact shows_of_effectOf_error sound ls (by decide) lists
  · exact shows_noSuchDirectory sound given cd noDirectory
  · exact shows_noSuchFile sound given (.inl rfl) cat noFile
  · exact shows_noSuchFile sound given (.inr rfl) openLink noFile

theorem treats_target : s.Treats path (s.tree.target (s.location.resolve path)) := by
  cases found : s.tree.lookup (s.location.resolve path) with
  | none =>
    rw [ContentTree.target, found]
    exact treats_missing sound given ends found
  | some n =>
    rw [ContentTree.target, found]
    cases n with
    | directory label children => exact treats_directory sound given ends found
    | file label content link => exact treats_file sound given ends found

end Found

/-- In every state that a session can be in, the four verbs treat a path as one target and as no other one,
and that target is what the tree holds where the path leads. -/
theorem treats_iff_target (tree : ContentTree) (config : Config) (actions : List Action) (given : path ≠ "")
    (ends : Text.Trim path.toList) (target : Target) :
    let s := (start tree config).after actions
    s.Treats path target ↔ target = tree.target (s.location.resolve path) := by
  intro s
  have sound : s.log.WellNumbered := wellNumbered_after tree config actions
  have same : s.tree = tree := tree_after (start tree config) actions
  have treated : s.Treats path (tree.target (s.location.resolve path)) := same ▸ treats_target sound given ends
  constructor
  · exact fun other => other.unique treated
  · rintro rfl
    exact treated

theorem treats_sample_targets :
    let s := (start Sample.tree .default).after [.submit "skills", .submit "cd nowhere", .recallPrevious]
    ("..//projects/archive/." ≠ "" ∧ Text.Trim "..//projects/archive/.".toList) ∧
    s.Treats "..//projects/archive/." (.directory [⟨"ascii-invaders", .file, some "Retired side project", none⟩]) ∧
    s.Treats "~/contact/github" (.file "github" (.text "github.com/example") (some "https://github.com/example")) ∧
    s.Treats "tools/more" .missing := by
  intro s
  have place : s.location = ⟨["skills"]⟩ := by decide +kernel
  have target {path : String} {target : Target} (given : path ≠ "") (ends : Text.Trim path.toList)
      (found : target = Sample.tree.target (Location.resolve ⟨["skills"]⟩ path)) : s.Treats path target :=
    (treats_iff_target Sample.tree .default [.submit "skills", .submit "cd nowhere", .recallPrevious] given ends
      target).mpr (place ▸ found)
  have ends {path : String} (solid : path.toList.any Text.isBlank = false) : Text.Trim path.toList :=
    .of_solid (Text.any_isBlank_eq_false.mp solid)
  refine ⟨⟨by decide, ends (by decide)⟩, ?_, ?_, ?_⟩
  · exact target (by decide) (ends (by decide)) rfl
  · exact target (by decide) (ends (by decide)) rfl
  · exact target (by decide) (ends (by decide)) rfl

end Session

end PortfolioShell
