import PortfolioShell.Proofs.Shell.Aliases
import PortfolioShell.Proofs.Shell.Commands
import PortfolioShell.Proofs.Shell.Diagnostics
import PortfolioShell.Proofs.Shell.Whereabouts
import PortfolioShell.Proofs.Tree.Sections

/-! # Requests of a submission

What a line asks of the world outside, and when. `Session.Prompts` gives the reasons for a request: a `cd` or
the name of a section that ends in a section, a link to open, and `clear`. A submission makes a request
exactly when there is a reason for it (`requests_iff_prompts`), and never more than one. -/

namespace PortfolioShell.Session

open Text

/-- The line begins with a word that is no verb but is the name of a section, in any case of ASCII letters. -/
def NamesSection (tree : ContentTree) (input : String) : Prop :=
  ∃ command, CommandLine.parse? (trimmed input) = some command ∧ Verb.ofWord? command.word = none ∧
    ∃ name ∈ tree.sections, equalIgnoringAsciiCase name command.word = true

/-- The reasons for which the submission of a line makes a request. -/
inductive Prompts (s : Session) (input : String) : HostRequest → Prop where
  /-- A `cd` has succeeded, and the session is in a section now. -/
  | follow {args name : String} (said : Says input .cd args) (succeeds : (s.submit input).1.hasDiagnostic = false)
      (place : (s.submit input).2.location.segments = [name]) :
      Prompts s input (.switchPanel name s.config.navigationDelay.toNat)
  /-- The line has named a section, and the session is in a section now. -/
  | overview {name : String} (named : NamesSection s.tree input)
      (place : (s.submit input).2.location.segments = [name]) : Prompts s input (.switchPanel name 0)
  /-- `open` is for a file that has a link. -/
  | link {args uri : String} {label : Label} {content : Content} (said : Says input .openLink args)
      (found : s.tree.lookup (s.location.resolve args) = some (.file label content (some uri))) :
      Prompts s input (.openExternal uri)
  | wipe {args : String} (said : Says input .clear args) : Prompts s input .clearPanel

variable {s : Session} {input args : String} {command : CommandLine} {e : Effect} {r : HostRequest}

/-! ### Requests have reasons -/

theorem Achieves.length_requests_le (done : s.Achieves command e) : e.requests.length ≤ 1 := by
  cases done with
  | shows verb plain => exact Nat.zero_le 1
  | wipes verb => exact Nat.le_refl 1
  | opens verb found => exact Nat.le_refl 1
  | visits verb named listed => exact Nat.le_refl 1
  | moves verb passes =>
    show (s.followRequests _).length ≤ 1
    unfold followRequests
    split
    · exact Nat.le_refl 1
    · exact Nat.zero_le 1

theorem mem_followRequests {target : Location} : r ∈ s.followRequests target ↔
    ∃ name, target.segments = [name] ∧ r = .switchPanel name s.config.navigationDelay.toNat := by
  unfold followRequests
  split
  · rename_i name single
    simp [single]
  · rename_i other
    constructor
    · intro none
      cases none
    · rintro ⟨name, single, -⟩
      exact absurd single (other name)

theorem prompts_of_works (sound : s.log.WellNumbered) (parsed : CommandLine.parse? (trimmed input) = some command)
    (works : (s.entered input).effect command (trimmed input) = .ok e) (member : r ∈ e.requests) :
    s.Prompts input r := by
  have place : (s.submit input).2.location = e.location := congrArg (·.2.location) (submit_of_ok parsed works)
  have succeeds : (s.submit input).1.hasDiagnostic = false := hasDiagnostic_of_ok sound parsed works
  cases achieves_of_effect works with
  | shows verb plain => exact absurd member List.not_mem_nil
  | wipes verb =>
    obtain rfl := List.mem_singleton.mp member
    exact .wipe ⟨command, parsed, verb, rfl⟩
  | opens verb found =>
    obtain rfl := List.mem_singleton.mp member
    exact .link ⟨command, parsed, verb, rfl⟩ found
  | moves verb passes =>
    obtain ⟨name, single, rfl⟩ := mem_followRequests.mp member
    exact .follow ⟨command, parsed, verb, rfl⟩ succeeds (place ▸ single)
  | @visits name entries verb named listed =>
    obtain rfl := List.mem_singleton.mp member
    obtain ⟨listed, alike⟩ := ContentTree.mem_sections_of_findSection? named
    exact .overview ⟨command, parsed, verb, name, listed, alike⟩ (place ▸ rfl)

/-! ### Reasons make requests -/

/-- The name of a section always leads there: what is found by it can be listed. -/
theorem submit_section (named : NamesSection s.tree input) : ∃ name,
    (s.submit input).1.requests = [.switchPanel name 0] ∧ (s.submit input).2.location = Location.root.join name := by
  obtain ⟨command, parsed, verb, alike, listed, same⟩ := named
  obtain ⟨name, found⟩ := ContentTree.exists_findSection? listed same
  obtain ⟨label, children, child⟩ :=
    ContentTree.exists_child?_of_mem_sections (ContentTree.mem_sections_of_findSection? found).1
  have works : (s.entered input).effect command (trimmed input) =
      .ok ((s.entered input).visits name (children.map Entry.ofNode)) :=
    effect_of_section (s := s.entered input) verb found child _
  rw [submit_of_ok parsed works]
  exact ⟨name, rfl, rfl⟩

theorem Prompts.mem_requests (sound : s.log.WellNumbered) (here : s.tree.isDirectory s.location = true)
    (reason : s.Prompts input r) : r ∈ (s.submit input).1.requests := by
  cases reason with
  | @follow args name said succeeds place =>
    obtain ⟨command, parsed, -, same⟩ := said.effect (by decide) s
    cases result : s.changeEffect args with
    | error err =>
      rw [effectOf, result] at same
      rw [hasDiagnostic_of_error sound parsed same] at succeeds
      cases succeeds
    | ok e =>
      rw [effectOf, result] at same
      have moved : e = s.moves (s.destination args) := by
        rw [changeEffect] at result
        split at result
        · exact (Except.ok.inj result).symm
        · cases result
      subst moved
      rw [submit_of_ok parsed same] at place ⊢
      exact mem_followRequests.mpr ⟨name, place, rfl⟩
  | @overview name named place =>
    obtain ⟨found, requests, moved⟩ := submit_section named
    rw [moved] at place
    obtain rfl : found = name := List.singleton_inj.mp place
    rw [requests]
    exact List.mem_singleton_self _
  | @link args uri label content said found =>
    -- without a path `open` would be for the place itself, which is no file
    have given : args ≠ "" := by
      rintro rfl
      obtain ⟨n, reached, kind⟩ := ContentTree.isDirectory_iff.mp here
      rw [Location.resolve_empty, reached] at found
      obtain rfl := Option.some.inj found
      cases kind
    rw [(submit_read sound (.inr rfl) said given found).1]
    exact List.mem_singleton_self _
  | wipe said =>
    obtain ⟨command, parsed, spelled, -⟩ := said
    have wipes : (s.entered input).effect command (trimmed input) = .ok (s.entered input).wipes :=
      effect_of_verb spelled _ _
    rw [submit_of_ok parsed wipes]
    exact List.mem_singleton_self _

/-- The panel is switched to the one name of the new place, and what is one step below the root is a section. -/
theorem Prompts.mem_sections (here : s.tree.isDirectory s.location = true) {name : String} {delay : Nat}
    (reason : s.Prompts input (.switchPanel name delay)) : name ∈ s.tree.sections := by
  have place : (s.submit input).2.location.segments = [name] := by
    cases reason with
    | follow said succeeds place => exact place
    | overview named place => exact place
  have there := isDirectory_submit here input
  rw [tree_submit] at there
  generalize (s.submit input).2.location = target at place there
  obtain ⟨segments⟩ := target
  obtain rfl : segments = [name] := place
  exact ContentTree.mem_sections_iff.mpr there

/-- A submission makes one request at most, and makes it exactly for one of the four reasons. The panel is only
ever switched to sections of the tree. -/
theorem requests_iff_prompts (tree : ContentTree) (config : Config) (actions : List Action) (input : String) :
    let s := (start tree config).after actions
    (s.submit input).1.requests.length ≤ 1 ∧
    (∀ r, r ∈ (s.submit input).1.requests ↔ s.Prompts input r) ∧
    (∀ name delay, .switchPanel name delay ∈ (s.submit input).1.requests → name ∈ tree.sections) := by
  intro s
  have sound : s.log.WellNumbered := wellNumbered_after tree config actions
  have same : s.tree = tree := tree_after (start tree config) actions
  have here : s.tree.isDirectory s.location = true := by
    rw [same]
    exact isDirectory_after tree config actions
  have prompts : ∀ r ∈ (s.submit input).1.requests, s.Prompts input r := by
    intro r member
    cases s.handling input with
    | blank nothing =>
      rw [submit_of_blank nothing] at member
      cases member
    | fails parsed result =>
      rw [submit_of_error parsed result] at member
      cases member
    | works parsed result =>
      rw [submit_of_ok parsed result] at member
      exact prompts_of_works sound parsed result member
  refine ⟨?_, fun r => ⟨prompts r, fun reason => reason.mem_requests sound here⟩, ?_⟩
  · rcases s.requests_submit input with none | ⟨command, e, done, requests⟩
    · rw [none]
      exact Nat.zero_le 1
    · rw [requests]
      exact done.length_requests_le
  · intro name delay member
    exact same ▸ (prompts _ member).mem_sections here

theorem requests_iff_prompts_in_sample :
    let s := (start Sample.tree .default).after [.submit "contact", .submit "cd nowhere", .recallPrevious]
    .switchPanel "projects" 300 ∈ (s.submit "cd ../projects/archive/..").1.requests ∧
      "projects" ∈ Sample.tree.sections ∧
      s.Prompts "Skills please" (.switchPanel "skills" 0) ∧
      s.Prompts "open github" (.openExternal "https://github.com/example") ∧
      ¬ s.Prompts "cd projects" (.switchPanel "contact" 300) := by
  intro s
  have follows : .switchPanel "projects" 300 ∈ (s.submit "cd ../projects/archive/..").1.requests := by decide +kernel
  have overview : .switchPanel "skills" 0 ∈ (s.submit "Skills please").1.requests := by decide +kernel
  have link : .openExternal "https://github.com/example" ∈ (s.submit "open github").1.requests := by decide +kernel
  have fails : .switchPanel "contact" 300 ∉ (s.submit "cd projects").1.requests := by decide +kernel
  have general (input : String) := requests_iff_prompts Sample.tree .default
    [.submit "contact", .submit "cd nowhere", .recallPrevious] input
  obtain ⟨-, -, sections⟩ := general "cd ../projects/archive/.."
  obtain ⟨-, named, -⟩ := general "Skills please"
  obtain ⟨-, opened, -⟩ := general "open github"
  obtain ⟨-, failed, -⟩ := general "cd projects"
  refine ⟨follows, sections "projects" 300 follows, (named _).mp overview, (opened _).mp link, ?_⟩
  exact fun reason => fails ((failed _).mpr reason)

end PortfolioShell.Session
