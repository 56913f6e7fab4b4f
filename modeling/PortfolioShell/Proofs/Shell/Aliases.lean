import PortfolioShell.Proofs.Shell.Diagnostics
import PortfolioShell.Proofs.Text.LetterCase
import PortfolioShell.Proofs.Text.Words
import PortfolioShell.Proofs.Tree.Sections

/-! # Names of sections as commands

A line whose first word is no verb is for a section. In the spelling of the tree the word leads to that section
and to no other, whatever the other sections and the files are called (`section_opens_by_name`). In any other
spelling it leads to a section exactly when there is one whose name differs in the case of ASCII letters only
(`alias_opens_iff`); verbs and completions compare lower-cased words, which goes further. -/

namespace PortfolioShell

theorem Verb.ofWord?_eq_none_iff {word : String} :
    ofWord? word = none ↔ Text.lowercase word ∉ spellings.map Prod.fst := by
  rw [ofWord?, List.lookup_eq_none_iff]
  constructor
  · intro others member
    obtain ⟨spelling, listed, same⟩ := List.mem_map.mp member
    exact bne_iff_ne.mp (others spelling listed) same.symm
  · intro unlisted spelling listed
    exact bne_iff_ne.mpr fun same => unlisted (same ▸ List.mem_map_of_mem listed)

namespace Session

open Text

variable {s : Session} {input name : String} {command : CommandLine}

/-! ### What becomes of the line -/

theorem effect_of_section (unspoken : Verb.ofWord? command.word = none)
    (named : s.tree.findSection? command.word = some name) {label : Label} {children : List Node}
    (child : s.tree.root.child? name = some (.directory label children)) (line : String) :
    s.effect command line = .ok (s.visits name (children.map Entry.ofNode)) := by
  have found : s.tree.lookup (Location.root.join name) = some (.directory label children) :=
    (ContentTree.lookup_child s.tree name).trans child
  have listed : s.tree.listing (Location.root.join name) = .entries (children.map Entry.ofNode) :=
    ContentTree.listing_eq_entries_iff.mpr ⟨label, children, found, rfl⟩
  rw [effect, unspoken]
  show s.sectionEffect command.word line = _
  rw [sectionEffect, named]
  simp only [listed]

theorem payloads_visits {label : Label} {children : List Node}
    (child : s.tree.root.child? name = some (.directory label children)) (entries : List Entry) :
    (s.visits name entries).payloads =
      (label.description.map Payload.text).toList ++ [.listing ("/" ++ name) entries true] := by
  have found : s.tree.lookup (Location.root.join name) = some (.directory label children) :=
    (ContentTree.lookup_child s.tree name).trans child
  have described : s.tree.description? (Location.root.join name) = label.description := by
    rw [ContentTree.description?, found]
    rfl
  have path : (Location.root.join name).toText = "/" ++ name := by
    simp [Location.toText, Location.isRoot, Location.join, Location.root]
  rw [visits, described, path]

/-- The word finds a section, and the session goes there. -/
theorem submit_visit (sound : s.log.WellNumbered) (parsed : CommandLine.parse? (trimmed input) = some command)
    (unspoken : Verb.ofWord? command.word = none) (named : s.tree.findSection? command.word = some name)
    {label : Label} {children : List Node} (child : s.tree.root.child? name = some (.directory label children)) :
    (s.submit input).1 = ⟨OutputLog.numbered s.log.lastId (.echo s.prompt input ::
        ((label.description.map Payload.text).toList ++ [.listing ("/" ++ name) (children.map Entry.ofNode) true])),
      [.switchPanel name 0]⟩ ∧
    (s.submit input).1.hasDiagnostic = false ∧ (s.submit input).2.location = Location.root.join name := by
  have works : (s.entered input).effect command (trimmed input) =
      .ok ((s.entered input).visits name (children.map Entry.ofNode)) :=
    effect_of_section (s := s.entered input) unspoken named child _
  have payloads := payloads_visits (s := s.entered input) child (children.map Entry.ofNode)
  have records := records_of_ok sound parsed works rfl
  have plain := hasDiagnostic_of_ok sound parsed works
  rw [payloads] at records
  rw [submit_of_ok parsed works] at records plain ⊢
  exact ⟨congrArg (Outcome.mk · [.switchPanel name 0]) records, plain, rfl⟩

/-- The word finds no section, and the line is an unknown command. -/
theorem submit_unknown (sound : s.log.WellNumbered) (parsed : CommandLine.parse? (trimmed input) = some command)
    (unspoken : Verb.ofWord? command.word = none) (nothing : s.tree.findSection? command.word = none) :
    (s.submit input).1 = ⟨OutputLog.numbered s.log.lastId [.echo s.prompt input,
        .diagnostic .unknownCommand ("command not found: " ++ trimmed input)], []⟩ ∧
    (s.submit input).2.location = s.location := by
  have fails : (s.entered input).effect command (trimmed input) = .error (.commandNotFound (trimmed input)) := by
    rw [effect, unspoken]
    show (s.entered input).sectionEffect command.word (trimmed input) = _
    have sameTree : (s.entered input).tree = s.tree := rfl
    rw [sectionEffect, sameTree, nothing]
  have records := records_of_error sound parsed fails
  rw [submit_of_error parsed fails] at records ⊢
  exact ⟨congrArg (Outcome.mk · []) records, rfl⟩

/-- A section opens under its own name, with anything after it: the session is in that section, the panel is
switched to it at once, and its description is shown, if it has one, and then its children. -/
theorem section_opens_by_name (tree : ContentTree) (config : Config) (actions : List Action) {label : Label}
    {children : List Node} (listed : .directory label children ∈ tree.root.children)
    (unspoken : lowercase label.name ∉ Verb.spellings.map Prod.fst) {lead after : String}
    (before : ∀ c ∈ lead.toList, isBlank c = true) (cut : ∀ c ∈ after.toList.head?, isBlank c = true) :
    let s := (start tree config).after actions
    let line := lead ++ label.name ++ after
    (s.submit line).2.location = ⟨[label.name]⟩ ∧
    (s.submit line).1.requests = [.switchPanel label.name 0] ∧
    (s.submit line).1.hasDiagnostic = false ∧
    ∃ rows, List.Forall₂ Entry.IsRow rows children ∧
      (s.submit line).1.records.map Record.payload = .echo s.prompt line ::
        ((label.description.map Payload.text).toList ++ [.listing ("/" ++ label.name) rows true]) := by
  intro s line
  have sound : s.log.WellNumbered := wellNumbered_after tree config actions
  have same : s.tree = tree := tree_after (start tree config) actions
  have child : s.tree.root.child? label.name = some (.directory label children) := by
    rw [same]
    exact tree.wellNamed_root.child?_of_mem listed
  have named : EntryName label.name := tree.wellNamed_root.entryName_of_mem listed
  have member : label.name ∈ s.tree.sections :=
    ContentTree.mem_sections_iff.mpr (ContentTree.isDirectory_iff.mpr
      ⟨_, (ContentTree.lookup_child s.tree label.name).trans child, rfl⟩)
  obtain ⟨args, parsed⟩ := CommandLine.parse?_first_word before (by simpa using named.filled) named.solid cut
  have text : String.ofList (lead.toList ++ label.name.toList ++ after.toList) = line := by
    simp [line, String.ofList_append, String.append_assoc]
  rw [text, String.ofList_toList, ← CommandLine.parse?_trimmed] at parsed
  obtain ⟨outcome, plain, place⟩ := submit_visit sound parsed (Verb.ofWord?_eq_none_iff.mpr unspoken)
    (ContentTree.findSection?_of_mem member) child
  refine ⟨place, ?_, plain, _, Entry.areRows_iff.mpr rfl, ?_⟩
  · rw [outcome]
  · rw [outcome, OutputLog.payloads_numbered]

/-- The section of `lookalikes` that is opened below. -/
def notes : Node :=
  .directory ⟨"blog", some "Notes", none⟩
    [(Node.ofText "first" "Hello." |>.previewedAs "A greeting"), (Node.ofChildren "drafts" [] |>.describedAs "Unfinished")]

/-- Two sections and a file whose names differ in letter case only. -/
def lookalikes : ContentTree where
  root := .ofChildren "" [.ofChildren "Blog" [], .ofText "BLOG" "", notes]
  sound := by decide

-- a submission stands for itself and is not evaluated
attribute [local irreducible] Session.submit

theorem section_opens_among_lookalikes :
    let s := (start lookalikes .default).after [.submit "Blog", .submit "cat nothing", .recallPrevious]
    let line := "\t" ++ "blog" ++ "\u3000and more"
    notes ∈ lookalikes.root.children ∧
    lowercase "blog" ∉ Verb.spellings.map Prod.fst ∧ (∀ c ∈ "\t".toList, isBlank c = true) ∧
    (∀ c ∈ "\u3000and more".toList.head?, isBlank c = true) ∧
    (s.submit line).2.location = ⟨["blog"]⟩ ∧ (s.submit line).1.requests = [.switchPanel "blog" 0] ∧
    (s.submit line).1.records.map Record.payload =
      [.echo s.prompt line, .text "Notes", .listing "/blog"
        [⟨"first", .file, none, some "A greeting"⟩, ⟨"drafts", .directory, some "Unfinished", none⟩] true] := by
  intro s line
  have listed : notes ∈ lookalikes.root.children := .tail _ (.tail _ (.head _))
  have unspoken : lowercase "blog" ∉ Verb.spellings.map Prod.fst := by decide +kernel
  have before : ∀ c ∈ "\t".toList, isBlank c = true := List.all_eq_true.mp (by decide)
  have cut : ∀ c ∈ "\u3000and more".toList.head?, isBlank c = true := by
    have first : "\u3000and more".toList.head? = some '\u3000' := by decide
    intro c h
    obtain rfl := Option.some.inj (first.symm.trans h)
    decide
  obtain ⟨place, requests, -, rows, given, records⟩ := section_opens_by_name lookalikes .default
    [.submit "Blog", .submit "cat nothing", .recallPrevious] listed unspoken before cut
  obtain rfl := Entry.areRows_iff.mp given
  exact ⟨listed, unspoken, before, cut, place, requests, records⟩

/-! ### Other spellings -/

theorem parse?_alone {word : String} (filled : word ≠ "") (solid : ∀ c ∈ word.toList, isBlank c = false) :
    ∃ args, CommandLine.parse? (trimmed word) = some ⟨word, args⟩ := by
  have nothing : ∀ c ∈ ([] : List Char), isBlank c = true := List.forall_mem_nil _
  obtain ⟨args, parsed⟩ := @CommandLine.parse?_first_word [] word.toList [] nothing (by simpa using filled) solid (by simp)
  exact ⟨args, by simpa [CommandLine.parse?_trimmed] using parsed⟩

/-- A word that is no verb opens a section exactly when the name of a section differs from it in the case of
ASCII letters only; the name has the same lower case then. Else the line is an unknown command. For words and
names of ASCII characters it is enough that they have the same lower case. -/
theorem alias_opens_iff (tree : ContentTree) (config : Config) (actions : List Action) {word : String}
    (filled : word ≠ "") (solid : ∀ c ∈ word.toList, isBlank c = false)
    (unspoken : lowercase word ∉ Verb.spellings.map Prod.fst) :
    let s := (start tree config).after actions
    ((s.submit word).1.hasDiagnostic = false ↔ ∃ name ∈ tree.sections, equalIgnoringAsciiCase name word = true) ∧
    ((s.submit word).1.hasDiagnostic = false → ∃ name ∈ tree.sections,
      (s.submit word).2.location = ⟨[name]⟩ ∧ lowercase name = lowercase word) ∧
    ((s.submit word).1.hasDiagnostic = true → (s.submit word).2.location = s.location ∧
      (s.submit word).1.records.map Record.payload =
        [.echo s.prompt word, .diagnostic .unknownCommand ("command not found: " ++ word)]) ∧
    (∀ name ∈ tree.sections, lowercase name = lowercase word → (∀ c ∈ name.toList, c.toNat < 128) →
      (∀ c ∈ word.toList, c.toNat < 128) → (s.submit word).1.hasDiagnostic = false) := by
  intro s
  have sound : s.log.WellNumbered := wellNumbered_after tree config actions
  have same : s.tree = tree := tree_after (start tree config) actions
  obtain ⟨args, parsed⟩ := parse?_alone filled solid
  have unspoken : Verb.ofWord? word = none := Verb.ofWord?_eq_none_iff.mpr unspoken
  have ascii : ∀ name ∈ tree.sections, lowercase name = lowercase word → (∀ c ∈ name.toList, c.toNat < 128) →
      (∀ c ∈ word.toList, c.toNat < 128) → ∃ name ∈ tree.sections, equalIgnoringAsciiCase name word = true :=
    fun name listed alike letters others => ⟨name, listed, equalIgnoringAsciiCase_of_ascii letters others alike⟩
  rw [← same] at ascii ⊢
  cases named : s.tree.findSection? word with
  | none =>
    have nothing : ¬ ∃ name ∈ s.tree.sections, equalIgnoringAsciiCase name word = true :=
      ContentTree.findSection?_eq_none_iff.mp named
    have whole : trimmed word = word := by rw [trimmed, (Trim.of_solid solid).dropEnds_eq, String.ofList_toList]
    obtain ⟨outcome, place⟩ := submit_unknown sound parsed unspoken named
    rw [outcome, place, hasDiagnostic_numbered, OutputLog.payloads_numbered, whole]
    refine ⟨⟨fun plain => ?_, fun found => absurd found nothing⟩, fun plain => ?_, fun _ => ⟨rfl, rfl⟩,
      fun name listed alike letters others => absurd (ascii name listed alike letters others) nothing⟩
    · cases plain
    · cases plain
  | some name =>
    obtain ⟨listed, alike⟩ := ContentTree.mem_sections_of_findSection? named
    obtain ⟨label, children, child⟩ := ContentTree.exists_child?_of_mem_sections listed
    obtain ⟨-, plain, place⟩ := submit_visit sound parsed unspoken named child
    refine ⟨⟨fun _ => ⟨name, listed, alike⟩, fun _ => plain⟩,
      fun _ => ⟨name, listed, place, lowercase_eq_of_equalIgnoringAsciiCase alike⟩, fun shown => ?_, fun _ _ _ _ _ => plain⟩
    rw [plain] at shown
    cases shown

theorem alias_opens_in_sample :
    let s := (start Sample.tree .default).after [.submit "cd ~/projects/archive", .submit "clear", .recallPrevious]
    "SKILLS" ≠ "" ∧ (∀ c ∈ "SKILLS".toList, isBlank c = false) ∧
    lowercase "SKILLS" ∉ Verb.spellings.map Prod.fst ∧ "skills" ∈ Sample.tree.sections ∧
    equalIgnoringAsciiCase "skills" "SKILLS" = true ∧ (s.submit "SKILLS").1.hasDiagnostic = false := by
  intro s
  have filled : "SKILLS" ≠ "" := by decide
  have solid : ∀ c ∈ "SKILLS".toList, isBlank c = false := any_isBlank_eq_false.mp (by decide)
  have unspoken : lowercase "SKILLS" ∉ Verb.spellings.map Prod.fst := by decide +kernel
  have listed : "skills" ∈ Sample.tree.sections := by decide +kernel
  have alike : equalIgnoringAsciiCase "skills" "SKILLS" = true := by decide +kernel
  obtain ⟨opens_iff, -⟩ := alias_opens_iff Sample.tree .default
    [.submit "cd ~/projects/archive", .submit "clear", .recallPrevious] filled solid unspoken
  exact ⟨filled, solid, unspoken, listed, alike, opens_iff.mpr ⟨"skills", listed, alike⟩⟩

/-- A section with a letter beyond ASCII, which is not found in lower case. -/
theorem accented_alias_is_unknown : ∃ tree : ContentTree,
    tree.root = Node.ofChildren "" [Node.ofChildren "École" []] ∧ "École" ∈ tree.sections ∧
    (∀ c ∈ "école".toList, isBlank c = false) ∧ lowercase "École" = lowercase "école" ∧
    lowercase "école" ∉ Verb.spellings.map Prod.fst ∧ ((start tree .default).submit "école").1.hasDiagnostic = true := by
  refine ⟨⟨Node.ofChildren "" [Node.ofChildren "École" []], by decide⟩, rfl, ?_, ?_, ?_, ?_, ?_⟩
  · decide
  · exact any_isBlank_eq_false.mp (by decide)
  · decide +kernel
  · decide +kernel
  · decide +kernel

end Session

end PortfolioShell
