import PortfolioShell.Tree.Browse
import Mathlib.Data.List.Forall2
import Mathlib.Data.List.Nodup
import Mathlib.Data.List.Infix

/-! # Well-named trees

What the check of a content tree establishes: at every depth the names are entry names, and siblings have
different ones. From this follows what a walk can find: whatever it finds lies below directories only, and
was reached by entry names only. -/

namespace PortfolioShell

/-- In every directory, at every depth, the names are entry names and pairwise distinct. -/
inductive Node.WellNamed : Node → Prop where
  | file (label : Label) (content : Content) (link : Option String) : WellNamed (.file label content link)
  | directory {label : Label} {children : List Node}
      (named : ∀ c ∈ children, isEntryName c.name = true)
      (distinct : (children.map Node.name).Nodup)
      (below : ∀ c ∈ children, c.WellNamed) : WellNamed (.directory label children)

/-- What the check reports of a child that does not fit, under the path of its directory. -/
def misfitError (parent name : String) : TreeError :=
  if isEntryName name then .duplicateName parent name else .invalidName parent name

theorem firstFlaw?_cons (parent : String) (seen : List String) (child : Node) (rest : List Node) :
    firstFlaw? parent seen (child :: rest) =
      if isEntryName child.name = true ∧ child.name ∉ seen then
        (child.flaw? (childPath parent child.name)).or (firstFlaw? parent (child.name :: seen) rest)
      else some (misfitError parent child.name) := by
  rw [firstFlaw?]
  by_cases named : isEntryName child.name = true
  · by_cases used : child.name ∈ seen
    · simp [named, used, misfitError]
    · cases child.flaw? (childPath parent child.name) <;> simp [named, used]
  · simp [named, misfitError]

mutual

theorem Node.flaw?_eq_none_iff (path : String) : (n : Node) → (n.flaw? path = none ↔ n.WellNamed)
  | .file label content link => ⟨fun _ => .file label content link, fun _ => rfl⟩
  | .directory label children => by
    rw [Node.flaw?, firstFlaw?_eq_none_iff path [] children]
    constructor
    · rintro ⟨sound, distinct⟩
      exact .directory (fun c hc => (sound c hc).1) distinct (fun c hc => (sound c hc).2.2)
    · intro h
      cases h with
      | directory named distinct below =>
        exact ⟨fun c hc => ⟨named c hc, List.not_mem_nil, below c hc⟩, distinct⟩

/-- The check of the children goes on only past children that are in order. -/
theorem firstFlaw?_eq_none_iff (parent : String) (seen : List String) :
    (children : List Node) → (firstFlaw? parent seen children = none ↔
      (∀ c ∈ children, isEntryName c.name = true ∧ c.name ∉ seen ∧ c.WellNamed) ∧
        (children.map Node.name).Nodup)
  | [] => by simp [firstFlaw?]
  | child :: rest => by
    have below := Node.flaw?_eq_none_iff (childPath parent child.name) child
    have after := firstFlaw?_eq_none_iff parent (child.name :: seen) rest
    rw [firstFlaw?_cons, List.forall_mem_cons, List.map_cons, List.nodup_cons]
    by_cases fits : isEntryName child.name = true ∧ child.name ∉ seen
    · rw [if_pos fits, Option.or_eq_none_iff, below, after]
      -- the later children have not been seen before exactly if they are unlike the first one and unseen so far
      constructor
      · rintro ⟨good, sound, distinct⟩
        have fresh : child.name ∉ rest.map Node.name := fun twice => by
          obtain ⟨c, hc, same⟩ := List.mem_map.mp twice
          exact (sound c hc).2.1 (same ▸ List.mem_cons_self)
        have unseen : ∀ c ∈ rest, c.name ∉ seen := fun c hc before =>
          (sound c hc).2.1 (List.mem_cons_of_mem child.name before)
        exact ⟨⟨⟨fits.1, fits.2, good⟩, fun c hc => ⟨(sound c hc).1, unseen c hc, (sound c hc).2.2⟩⟩, fresh, distinct⟩
      · rintro ⟨⟨first, others⟩, fresh, distinct⟩
        refine ⟨first.2.2, fun c hc => ⟨(others c hc).1, fun before => ?_, (others c hc).2.2⟩, distinct⟩
        rcases List.mem_cons.mp before with same | before
        · exact fresh (same ▸ List.mem_map_of_mem hc)
        · exact (others c hc).2.1 before
    · rw [if_neg fits]
      exact ⟨fun accepted => (nomatch accepted), fun sound => absurd ⟨sound.1.1.1, sound.1.1.2.1⟩ fits⟩

end

namespace Node

theorem WellNamed.child? {n c : Node} {name : String} (h : n.WellNamed) (found : n.child? name = some c) :
    c.name = name ∧ isEntryName name = true ∧ c.WellNamed := by
  have same : c.name = name := by simpa using List.find?_some found
  have member : c ∈ n.children := List.mem_of_find?_eq_some found
  cases h with
  | file label content link => simp [children] at member
  | directory named distinct below => exact ⟨same, same ▸ named c member, below c member⟩

theorem isDirectory_of_child? {n c : Node} {name : String} (found : n.child? name = some c) :
    n.isDirectory = true := by
  cases n with
  | directory label children => rfl
  | file label content link => simp [child?, children] at found

/-! ### Walks -/

theorem descend?_append (n : Node) (first second : List String) :
    n.descend? (first ++ second) = (n.descend? first).bind (·.descend? second) := by
  induction first generalizing n with
  | nil => rfl
  | cons name rest ih =>
    simp only [List.cons_append, descend?, Option.bind_assoc]
    exact Option.bind_congr fun c _ => ih c

theorem isDirectory_of_descend?_cons {n m : Node} {name : String} {rest : List String}
    (found : n.descend? (name :: rest) = some m) : n.isDirectory = true := by
  obtain ⟨c, child, -⟩ := Option.bind_eq_some_iff.mp found
  exact isDirectory_of_child? child

theorem WellNamed.descend? {n m : Node} {names : List String} (h : n.WellNamed)
    (found : n.descend? names = some m) :
    (∀ name ∈ names, isEntryName name = true) ∧ m.WellNamed := by
  induction names generalizing n with
  | nil =>
    obtain rfl := Option.some.inj found
    exact ⟨fun _ hn => absurd hn List.not_mem_nil, h⟩
  | cons name rest ih =>
    obtain ⟨c, child, found⟩ := Option.bind_eq_some_iff.mp found
    obtain ⟨-, named, sound⟩ := h.child? child
    obtain ⟨below, good⟩ := ih sound found
    exact ⟨List.forall_mem_cons.mpr ⟨named, below⟩, good⟩

end Node

namespace ContentTree

variable {tree : ContentTree}

theorem isDirectory_root (tree : ContentTree) : tree.root.isDirectory = true := by
  have sound := tree.sound
  rw [Node.rootFlaw?] at sound
  split at sound
  · assumption
  · cases sound

theorem wellNamed_root (tree : ContentTree) : tree.root.WellNamed := by
  have sound := tree.sound
  rw [Node.rootFlaw?, if_pos tree.isDirectory_root] at sound
  exact (Node.flaw?_eq_none_iff "~" tree.root).mp sound

theorem isDirectory_iff {l : Location} :
    tree.isDirectory l = true ↔ ∃ n, tree.lookup l = some n ∧ n.isDirectory = true := by
  rw [isDirectory, Option.any_eq_true]

theorem isDirectory_of_prefix {l m : Location} (found : tree.isDirectory m = true)
    (above : l.segments <+: m.segments) : tree.isDirectory l = true := by
  obtain ⟨rest, split⟩ := above
  obtain ⟨n, found, directory⟩ := isDirectory_iff.mp found
  rw [lookup, ← split, Node.descend?_append] at found
  obtain ⟨k, reached, found⟩ := Option.bind_eq_some_iff.mp found
  refine isDirectory_iff.mpr ⟨k, reached, ?_⟩
  cases rest with
  | nil => exact Option.some.inj found ▸ directory
  | cons name rest => exact Node.isDirectory_of_descend?_cons found

theorem isEntryName_of_isDirectory {l : Location} (found : tree.isDirectory l = true) :
    ∀ name ∈ l.segments, isEntryName name = true := by
  obtain ⟨n, found, -⟩ := isDirectory_iff.mp found
  exact (tree.wellNamed_root.descend? found).1

theorem listing_eq_entries_iff {l : Location} {entries : List Entry} :
    tree.listing l = .entries entries ↔
      ∃ label children, tree.lookup l = some (.directory label children) ∧
        entries = children.map Entry.ofNode := by
  rw [listing]
  cases tree.lookup l with
  | none => simp
  | some n =>
    cases n with
    | directory label children => simp [Node.isDirectory, Node.children, eq_comm]
    | file label content link => simp [Node.isDirectory]

end ContentTree

/-! ### Rows of a listing -/

/-- The row of a node says its name, its kind, its description and its preview. -/
inductive Entry.IsRow : Entry → Node → Prop where
  | directory (label : Label) (children : List Node) :
    IsRow ⟨label.name, .directory, label.description, label.preview⟩ (.directory label children)
  | file (label : Label) (content : Content) (link : Option String) :
    IsRow ⟨label.name, .file, label.description, label.preview⟩ (.file label content link)

theorem Entry.isRow_iff {entry : Entry} {n : Node} : entry.IsRow n ↔ entry = ofNode n := by
  constructor
  · intro row
    cases row with
    | directory label children => rfl
    | file label content link => rfl
  · rintro rfl
    cases n with
    | directory label children => exact .directory label children
    | file label content link => exact .file label content link

/-- One row for each node, in the order of the nodes. -/
theorem Entry.areRows_iff {rows : List Entry} {nodes : List Node} :
    List.Forall₂ IsRow rows nodes ↔ rows = nodes.map ofNode := by
  have same : IsRow = fun entry n => entry = ofNode n := by
    funext entry n
    exact propext isRow_iff
  rw [same, ← List.forall₂_map_right_iff, List.forall₂_eq_eq_eq]

end PortfolioShell
