import PortfolioShell.Proofs.Tree.Paths

/-! # Sections

The sections of a tree are the directories right below its root. Since siblings have different names, what is
found under the name of a section is that section, and a name that is found to be a directory is a section. A
word that differs from the name of a section only in the case of ASCII letters finds a section. -/

namespace PortfolioShell.ContentTree

variable {tree : ContentTree} {name word : String}

theorem lookup_child (tree : ContentTree) (name : String) :
    tree.lookup (Location.root.join name) = tree.root.child? name :=
  Option.bind_fun_some (tree.root.child? name)

theorem mem_sections_iff : name ∈ tree.sections ↔ tree.isDirectory (Location.root.join name) = true := by
  rw [isDirectory_iff, lookup_child]
  constructor
  · intro member
    obtain ⟨n, listed, rfl⟩ := List.mem_map.mp member
    obtain ⟨child, kind⟩ := List.mem_filter.mp listed
    exact ⟨n, tree.wellNamed_root.child?_of_mem child, kind⟩
  · rintro ⟨n, found, kind⟩
    have named : n.name = name := (tree.wellNamed_root.child? found).1
    have child : n ∈ tree.root.children := List.mem_of_find?_eq_some found
    exact List.mem_map.mpr ⟨n, List.mem_filter.mpr ⟨child, kind⟩, named⟩

/-- A section is found under its name, and it is a directory below the root. -/
theorem exists_child?_of_mem_sections (listed : name ∈ tree.sections) :
    ∃ label children, tree.root.child? name = some (.directory label children) := by
  obtain ⟨n, found, kind⟩ := isDirectory_iff.mp (mem_sections_iff.mp listed)
  rw [lookup_child] at found
  cases n with
  | directory label children => exact ⟨label, children, found⟩
  | file label content link => cases kind

/-- The name of a section finds that section, whatever other sections are called. -/
theorem findSection?_of_mem (listed : name ∈ tree.sections) : tree.findSection? name = some name := by
  rw [findSection?]
  cases found : tree.sections.find? (· = name) with
  | none => simpa using List.find?_eq_none.mp found name listed
  | some other =>
    have same : other = name := by simpa using List.find?_some found
    rw [same, Option.some_or]

theorem mem_sections_of_findSection? (found : tree.findSection? word = some name) :
    name ∈ tree.sections ∧ Text.equalIgnoringAsciiCase name word = true := by
  rcases Option.or_eq_some_iff.mp found with exact | ⟨-, alike⟩
  · have same : name = word := by simpa using List.find?_some exact
    exact ⟨List.mem_of_find?_eq_some exact, by simp [same, Text.equalIgnoringAsciiCase]⟩
  · have test := List.find?_some alike
    exact ⟨List.mem_of_find?_eq_some alike, test⟩

theorem exists_findSection? (listed : name ∈ tree.sections) (alike : Text.equalIgnoringAsciiCase name word = true) :
    ∃ found, tree.findSection? word = some found := by
  have some : (tree.findSection? word).isSome = true := by
    rw [findSection?, Option.isSome_or, Bool.or_eq_true_iff, List.find?_isSome, List.find?_isSome]
    exact .inr ⟨name, listed, alike⟩
  exact Option.isSome_iff_exists.mp some

theorem findSection?_eq_none_iff :
    tree.findSection? word = none ↔ ¬ ∃ name ∈ tree.sections, Text.equalIgnoringAsciiCase name word = true := by
  constructor
  · rintro none ⟨name, listed, alike⟩
    obtain ⟨found, some⟩ := exists_findSection? listed alike
    rw [none] at some
    cases some
  · intro nothing
    cases found : tree.findSection? word with
    | none => rfl
    | some name => exact absurd ⟨name, mem_sections_of_findSection? found⟩ nothing

end PortfolioShell.ContentTree
