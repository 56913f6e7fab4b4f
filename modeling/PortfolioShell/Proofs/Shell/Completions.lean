import PortfolioShell.Proofs.Shell.Commands
import PortfolioShell.Proofs.Shell.Suggestions
import PortfolioShell.Proofs.Shell.Whereabouts
import PortfolioShell.Proofs.Tree.Paths

/-! # Completions run

What is offered after `cd`, `cat` and `open` can be submitted as it stands. The offers are made from the
children of the place where the session is, with their own cut into words; the shell takes the offered line
apart again, resolves the name and looks it up. `suggestions_run` says that the two agree on every name that
a content tree can hold. -/

namespace PortfolioShell

/-! ### What is offered -/

namespace Suggestion

variable {tree : ContentTree} {l : Location} {candidate : String}

theorem mem_withChildren {word rest : String} {wanted : Node → Bool} :
    candidate ∈ withChildren tree l word rest wanted ↔
      ∃ n ∈ childrenAt tree l, (wanted n = true ∧ beginsWith rest n.name = true) ∧ word ++ " " ++ n.name = candidate := by
  simp [withChildren, and_assoc]

/-- What may be offered after a verb: names of children of the kind that the verb takes, and after `cd` the
ways up and home. -/
inductive Offer (children : List Node) : Verb → String → Prop where
  | directory {n : Node} (listed : n ∈ children) (kind : n.isDirectory = true) : Offer children .cd n.name
  | up : Offer children .cd ".."
  | home : Offer children .cd "~"
  | file {n : Node} {verb : Verb} (reads : verb = .cat ∨ verb = .openLink) (listed : n ∈ children)
      (kind : n.isFile = true) : Offer children verb n.name

/-- After one of the three verbs and a blank, nothing else is offered. -/
theorem offer_of_mem {lead word rest : List Char} {gap : Char} {verb : Verb}
    (blank : ∀ c ∈ lead, Text.isBlank c = true) (solid : ∀ c ∈ word, Text.isBlank c = false)
    (cut : Text.isBlank gap = true) (completes : verb = .cd ∨ verb = .cat ∨ verb = .openLink)
    (spelled : Text.lowercase (String.ofList word) = verb.name)
    (offered : candidate ∈ all tree l (String.ofList (lead ++ word ++ gap :: rest))) :
    ∃ argument, candidate = verb.name ++ " " ++ argument ∧ Offer (childrenAt tree l) verb argument := by
  have filled : word ≠ [] := by
    rintro rfl
    rcases completes with rfl | rfl | rfl <;> exact absurd spelled (by decide)
  have gapped : ∀ c ∈ (gap :: rest).head?, Text.isBlank c = true := by
    intro c h
    obtain rfl := Option.some.inj h
    exact cut
  have followed : String.ofList ((gap :: rest).takeWhile Text.isBlank) ≠ "" := by simp [cut]
  rw [all_of_parts (parts_of_word blank filled solid gapped), if_neg followed, spelled] at offered
  rcases completes with rfl | rfl | rfl
  · simp only [Verb.name] at offered
    rcases List.mem_append.mp offered with child | special
    · obtain ⟨n, listed, ⟨kind, -⟩, rfl⟩ := mem_withChildren.mp child
      exact ⟨n.name, rfl, .directory listed kind⟩
    · obtain ⟨argument, member, rfl⟩ := List.mem_map.mp special
      have known : argument = ".." ∨ argument = "~" := by simpa using (List.mem_filter.mp member).1
      rcases known with rfl | rfl
      · exact ⟨"..", rfl, .up⟩
      · exact ⟨"~", rfl, .home⟩
  · simp only [Verb.name] at offered
    obtain ⟨n, listed, ⟨kind, -⟩, rfl⟩ := mem_withChildren.mp offered
    exact ⟨n.name, rfl, .file (.inl rfl) listed kind⟩
  · simp only [Verb.name] at offered
    obtain ⟨n, listed, ⟨kind, -⟩, rfl⟩ := mem_withChildren.mp offered
    exact ⟨n.name, rfl, .file (.inr rfl) listed kind⟩

end Suggestion

/-! ### What comes of it -/

theorem ContentTree.lookup_join {tree : ContentTree} {l : Location} {here : Node}
    (found : tree.lookup l = some here) (name : String) : tree.lookup (l.join name) = here.child? name := by
  have walked : tree.root.descend? l.segments = some here := found
  rw [lookup, Location.join, Node.descend?_append, walked, Option.bind_some]
  show (here.child? name).bind some = here.child? name
  exact Option.bind_fun_some (here.child? name)

namespace Session

/-- What a line with a verb and an argument comes to, for a session at the directory `here`: it leads up, home
or into a child, it shows a child's content, or it asks for a child's link to be opened. -/
inductive Fulfils (s : Session) (here : Node) : Verb → String → Outcome × Session → Prop where
  | up {r : Outcome × Session} (place : r.2.location = s.location.parent) : Fulfils s here .cd ".." r
  | home {r : Outcome × Session} (place : r.2.location = .root) : Fulfils s here .cd "~" r
  | enters {r : Outcome × Session} {label : Label} {children : List Node}
      (child : here.child? label.name = some (.directory label children))
      (place : r.2.location = s.location.join label.name) : Fulfils s here .cd label.name r
  | shows {r : Outcome × Session} {verb : Verb} {label : Label} {content : Content} {link : Option String}
      (child : here.child? label.name = some (.file label content link))
      (reads : verb = .cat ∨ verb = .openLink ∧ link = none)
      (shown : r.1.records.map Record.payload =
        [.echo s.prompt (verb.name ++ " " ++ label.name), .content label.name content])
      (quiet : r.1.requests = []) (place : r.2.location = s.location) : Fulfils s here verb label.name r
  | opens {r : Outcome × Session} {label : Label} {content : Content} {uri : String}
      (child : here.child? label.name = some (.file label content (some uri)))
      (asked : r.1.requests = [.openExternal uri]) (place : r.2.location = s.location) :
      Fulfils s here .openLink label.name r

variable {s : Session} {here : Node} {verb : Verb} {argument : String}

theorem submit_change_to (sound : s.log.WellNumbered) (given : argument ≠ "") (ends : Text.Trim argument.toList)
    {target : Location} (resolved : s.location.resolve argument = target)
    (passes : target.isRoot = true ∨ s.tree.isDirectory target = true) :
    (s.submit (Verb.cd.name ++ " " ++ argument)).1.hasDiagnostic = false ∧
      (s.submit (Verb.cd.name ++ " " ++ argument)).2.location = target := by
  have destination : s.destination argument = target := by rw [Session.destination, if_neg given, resolved]
  have checked : ((s.destination argument).isRoot || s.tree.isDirectory (s.destination argument)) = true := by
    rw [destination]
    exact Bool.or_eq_true_iff.mpr passes
  obtain ⟨outcome, place⟩ := submit_change sound (says_argument .cd given ends) checked
  rw [outcome, hasDiagnostic_numbered]
  exact ⟨rfl, place.trans destination⟩

theorem submit_read_child (sound : s.log.WellNumbered) (reads : verb = .cat ∨ verb = .openLink)
    (found : s.tree.lookup s.location = some here) {label : Label} {content : Content} {link : Option String}
    (named : EntryName label.name) (child : here.child? label.name = some (.file label content link)) :
    (s.submit (verb.name ++ " " ++ label.name)).1.hasDiagnostic = false ∧
      s.Fulfils here verb label.name (s.submit (verb.name ++ " " ++ label.name)) := by
  have there : s.tree.lookup (s.location.resolve label.name) = some (.file label content link) := by
    rw [Location.resolve_name named, ContentTree.lookup_join found, child]
  obtain ⟨outcome, place⟩ := submit_read sound reads (says_argument verb named.filled (.of_solid named.solid))
    named.filled there
  have plain : (s.submit (verb.name ++ " " ++ label.name)).1.hasDiagnostic = false := by
    rw [outcome, hasDiagnostic_numbered]
    exact s.plain_fileEffect verb label.name content link
  have requests : (s.submit (verb.name ++ " " ++ label.name)).1.requests =
      (s.fileEffect verb label.name content link).requests := congrArg Outcome.requests outcome
  have payloads : (s.submit (verb.name ++ " " ++ label.name)).1.records.map Record.payload =
      .echo s.prompt (verb.name ++ " " ++ label.name) :: (s.fileEffect verb label.name content link).payloads := by
    rw [outcome, OutputLog.payloads_numbered]
  refine ⟨plain, ?_⟩
  rcases reads with rfl | rfl
  · exact .shows child (.inl rfl) payloads requests place
  · cases link with
    | none => exact .shows child (.inr ⟨rfl, rfl⟩) payloads requests place
    | some uri => exact .opens child requests place

/-- Every completion of a line that begins with `cd`, `cat` or `open`, in any letter case, and a blank runs
without a diagnostic, in every state that a session can be in, and does what it says. -/
theorem suggestions_run (tree : ContentTree) (config : Config) (actions : List Action)
    {lead word rest : List Char} {gap : Char} (blank : ∀ c ∈ lead, Text.isBlank c = true)
    (solid : ∀ c ∈ word, Text.isBlank c = false) (cut : Text.isBlank gap = true)
    (completes : verb = .cd ∨ verb = .cat ∨ verb = .openLink)
    (spelled : Text.lowercase (String.ofList word) = verb.name) :
    let s := (start tree config).after actions
    ∃ here, tree.lookup s.location = some here ∧
      ∀ candidate ∈ s.suggest (String.ofList (lead ++ word ++ gap :: rest)),
        (s.submit candidate).1.hasDiagnostic = false ∧
        ∃ argument, candidate = verb.name ++ " " ++ argument ∧ s.Fulfils here verb argument (s.submit candidate) := by
  intro s
  have sound : s.log.WellNumbered := wellNumbered_after tree config actions
  have same : s.tree = tree := tree_after (start tree config) actions
  have inside : s.tree.isDirectory s.location = true := by
    rw [same]
    exact isDirectory_after tree config actions
  obtain ⟨here, found, -⟩ := ContentTree.isDirectory_iff.mp inside
  have good : here.WellNamed := (s.tree.wellNamed_root.descend? found).2
  refine ⟨here, same ▸ found, fun candidate offered => ?_⟩
  obtain ⟨argument, rfl, offer⟩ := Suggestion.offer_of_mem blank solid cut completes spelled (List.mem_of_mem_take offered)
  rw [Suggestion.childrenAt_of_lookup found] at offer
  cases offer with
  | up =>
    have above : s.tree.isDirectory s.location.parent = true :=
      ContentTree.isDirectory_of_prefix inside (List.dropLast_prefix _)
    have solid : ∀ c ∈ "..".toList, Text.isBlank c = false := Text.any_isBlank_eq_false.mp (by decide)
    obtain ⟨plain, place⟩ := submit_change_to sound (by decide) (.of_solid solid) s.location.resolve_up (.inr above)
    exact ⟨plain, _, rfl, .up place⟩
  | home =>
    have solid : ∀ c ∈ "~".toList, Text.isBlank c = false := Text.any_isBlank_eq_false.mp (by decide)
    obtain ⟨plain, place⟩ := submit_change_to sound (by decide) (.of_solid solid) s.location.resolve_home (.inl rfl)
    exact ⟨plain, _, rfl, .home place⟩
  | @directory n listed kind =>
    have child : here.child? n.name = some n := good.child?_of_mem listed
    have named : EntryName n.name := good.entryName_of_mem listed
    have there : s.tree.isDirectory (s.location.join n.name) = true :=
      ContentTree.isDirectory_iff.mpr ⟨n, (ContentTree.lookup_join found n.name).trans child, kind⟩
    obtain ⟨plain, place⟩ := submit_change_to sound named.filled (.of_solid named.solid)
      (Location.resolve_name named s.location) (.inr there)
    cases n with
    | directory label children => exact ⟨plain, _, rfl, .enters child place⟩
    | file label content link => cases kind
  | @file n verb reads listed kind =>
    have child : here.child? n.name = some n := good.child?_of_mem listed
    have named : EntryName n.name := good.entryName_of_mem listed
    cases n with
    | directory label children => cases kind
    | file label content link =>
      obtain ⟨plain, fulfilled⟩ := submit_read_child sound reads found named child
      exact ⟨plain, _, rfl, fulfilled⟩

theorem suggestions_run_in_sample :
    let s := (start Sample.tree .default).after [.submit "projects", .submit "cat", .recallPrevious]
    let typed := String.ofList (['\t'] ++ ['O', 'p', 'E', 'n'] ++ ' ' :: ['p'])
    (∀ c ∈ ['\t'], Text.isBlank c = true) ∧ (∀ c ∈ ['O', 'p', 'E', 'n'], Text.isBlank c = false) ∧
      Text.isBlank ' ' = true ∧ Text.lowercase (String.ofList ['O', 'p', 'E', 'n']) = Verb.openLink.name ∧
      "open pixel-forge" ∈ s.suggest typed ∧
      (s.submit "open pixel-forge").1.hasDiagnostic = false ∧
      ∃ here, s.Fulfils here .openLink "pixel-forge" (s.submit "open pixel-forge") := by
  intro s typed
  have offered : "open pixel-forge" ∈ s.suggest typed := by decide +kernel
  have blank : ∀ c ∈ ['\t'], Text.isBlank c = true := List.all_eq_true.mp (by decide)
  have solid : ∀ c ∈ ['O', 'p', 'E', 'n'], Text.isBlank c = false := Text.any_isBlank_eq_false.mp (by decide)
  have cut : Text.isBlank ' ' = true := by decide
  have spelled : Text.lowercase (String.ofList ['O', 'p', 'E', 'n']) = Verb.openLink.name := by decide
  obtain ⟨here, -, run⟩ := suggestions_run Sample.tree .default [.submit "projects", .submit "cat", .recallPrevious]
    blank solid cut (.inr (.inr rfl)) spelled
  obtain ⟨plain, argument, split, fulfilled⟩ := run "open pixel-forge" offered
  have name : "pixel-forge" = argument := (String.append_right_inj "open ").mp split
  exact ⟨blank, solid, cut, spelled, offered, plain, here, by rw [name]; exact fulfilled⟩

end Session

end PortfolioShell
