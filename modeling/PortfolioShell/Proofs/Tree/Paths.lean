import PortfolioShell.Proofs.Text.Words
import PortfolioShell.Proofs.Tree.WellNamed

/-! # Paths of nodes

Going down from a node by the positions of children, and the same way told by names. In a well-named tree
the names lead where the positions lead (`Reaches.descend?`), and a path that is written with these names is
resolved to them (`resolve_homePath`), from wherever it is resolved. -/

namespace PortfolioShell

/-! ### Going down by positions -/

/-- From the first node, the positions lead past children of these names to the last one of them. -/
inductive Node.Reaches : Node → List Nat → List String → Node → Prop where
  | here (n : Node) : Reaches n [] [] n
  | down {n c m : Node} {i : Nat} {positions : List Nat} {names : List String} (child : n.children[i]? = some c)
      (below : c.Reaches positions names m) : Reaches n (i :: positions) (c.name :: names) m

namespace Node

variable {n c m : Node} {positions : List Nat} {names : List String}

theorem WellNamed.distinct (h : n.WellNamed) : (n.children.map Node.name).Nodup := by
  cases h with
  | file label content link => exact List.nodup_nil
  | directory named distinct below => exact distinct

/-- The first child of a name is the only one. -/
theorem WellNamed.child?_of_mem (h : n.WellNamed) (member : c ∈ n.children) : n.child? c.name = some c := by
  cases found : n.child? c.name with
  | none =>
    have other := List.find?_eq_none.mp found c member
    simp at other
  | some d =>
    have same : d.name = c.name := (h.child? found).1
    have listed : d ∈ n.children := List.mem_of_find?_eq_some found
    rw [List.inj_on_of_nodup_map h.distinct listed member same]

theorem Reaches.descend? (reached : n.Reaches positions names m) (h : n.WellNamed) : n.descend? names = some m := by
  induction reached with
  | here n => rfl
  | @down n c m i positions names child below ih =>
    have found : n.child? c.name = some c := h.child?_of_mem (List.mem_of_getElem? child)
    have sound : c.WellNamed := (h.child? found).2.2
    rw [Node.descend?, found, Option.bind_some, ih sound]

end Node

theorem ContentTree.lookup_of_reaches {tree : ContentTree} {n : Node} {positions : List Nat} {names : List String}
    (reached : tree.root.Reaches positions names n) : tree.lookup ⟨names⟩ = some n :=
  reached.descend? tree.wellNamed_root

/-! ### Entry names -/

/-- What makes a name the name of an entry. -/
structure EntryName (name : String) : Prop where
  filled : name ≠ ""
  plain : '/' ∉ name.toList
  solid : ∀ c ∈ name.toList, Text.isBlank c = false
  free : name ≠ "." ∧ name ≠ ".." ∧ name ≠ "~"

/-- What makes a field of a path expression a step down to a place of that name. An entry name is such a field, and
it has no blanks besides. -/
structure PlainName (name : String) : Prop where
  filled : name ≠ ""
  whole : '/' ∉ name.toList
  free : name ≠ "." ∧ name ≠ ".." ∧ name ≠ "~"

theorem EntryName.plainName {name : String} (named : EntryName name) : PlainName name :=
  ⟨named.filled, named.plain, named.free⟩

theorem isEntryName_iff {name : String} : isEntryName name = true ↔ EntryName name := by
  constructor
  · intro h
    simp only [isEntryName, reservedNames, Bool.and_eq_true, Bool.not_eq_true', Text.any_isBlank_eq_false] at h
    obtain ⟨⟨⟨filled, plain⟩, solid⟩, free⟩ := h
    exact ⟨by simpa using filled, by simpa using plain, solid, by simpa using free⟩
  · intro h
    simp only [isEntryName, reservedNames, Bool.and_eq_true, Bool.not_eq_true', Text.any_isBlank_eq_false]
    exact ⟨⟨⟨by simpa using h.filled, by simpa using h.plain⟩, h.solid⟩, by simpa using h.free⟩

theorem Node.WellNamed.entryName_of_mem {n c : Node} (h : n.WellNamed) (member : c ∈ n.children) : EntryName c.name :=
  isEntryName_iff.mp (h.child? (h.child?_of_mem member)).2.1

namespace Location

/-! ### Paths of names -/

theorem step_name {name : String} (named : PlainName name) (l : Location) : l.step name = l.join name := by
  simp [step, named.filled, named.free]

theorem foldl_step_names {names : List String} (named : ∀ name ∈ names, PlainName name) (l : Location) :
    names.foldl step l = ⟨l.segments ++ names⟩ := by
  induction names generalizing l with
  | nil => simp
  | cons name rest ih =>
    have first : PlainName name := named name List.mem_cons_self
    have others : ∀ other ∈ rest, PlainName other := fun other member => named other (List.mem_cons_of_mem name member)
    rw [List.foldl_cons, step_name first, ih others]
    simp [join]

/-- A path is cut where its fields were joined. -/
theorem resolve_intercalate {fields : List String} (filled : fields ≠ []) (plain : ∀ field ∈ fields, '/' ∉ field.toList)
    (l : Location) : l.resolve ("/".intercalate fields) = fields.foldl step l := by
  have texts : ∀ field ∈ fields.map String.toList, '/' ∉ field := by simpa using plain
  have listed : fields.map String.toList ≠ [] := by simpa using filled
  have cut : Text.split '/' ("/".intercalate fields) = fields := by
    rw [Text.split, String.toList_intercalate]
    show (List.splitOn '/' (['/'].intercalate (fields.map String.toList))).map String.ofList = fields
    rw [List.splitOn_intercalate '/' texts listed]
    simp
  rw [resolve, cut]

/-! ### Paths of one field -/

theorem resolve_field {field : String} (whole : '/' ∉ field.toList) (l : Location) : l.resolve field = l.step field := by
  have alone : "/".intercalate [field] = field := String.intercalate_singleton
  have cut := @resolve_intercalate [field] (List.cons_ne_nil field []) (by simpa using whole) l
  rwa [alone, List.foldl_cons, List.foldl_nil] at cut

theorem resolve_empty (l : Location) : l.resolve "" = l := l.resolve_field (by decide)

theorem resolve_up (l : Location) : l.resolve ".." = l.parent := l.resolve_field (by decide)

theorem resolve_home (l : Location) : l.resolve "~" = root := l.resolve_field (by decide)

theorem resolve_name {name : String} (named : EntryName name) (l : Location) : l.resolve name = l.join name := by
  rw [resolve_field named.plain, step_name named.plainName]

/-! ### Paths from the root -/

/-- The path that starts at the root: `~/a/b`. -/
def homePath (l : Location) : String := "/".intercalate ("~" :: l.segments)

theorem resolve_homePath {m : Location} (named : ∀ name ∈ m.segments, EntryName name) (l : Location) :
    l.resolve m.homePath = m := by
  have plain : ∀ field ∈ "~" :: m.segments, '/' ∉ field.toList :=
    List.forall_mem_cons.mpr ⟨by decide, fun name member => (named name member).plain⟩
  have home : l.step "~" = root := rfl
  have steps : ∀ name ∈ m.segments, PlainName name := fun name member => (named name member).plainName
  rw [homePath, resolve_intercalate (List.cons_ne_nil _ _) plain, List.foldl_cons, home, foldl_step_names steps]
  rfl

theorem solid_intercalate {fields : List String} (solid : ∀ field ∈ fields, ∀ c ∈ field.toList, Text.isBlank c = false) :
    ∀ c ∈ ("/".intercalate fields).toList, Text.isBlank c = false := by
  induction fields with
  | nil => simp
  | cons first rest ih =>
    obtain ⟨here, others⟩ := List.forall_mem_cons.mp solid
    cases rest with
    | nil => simpa using here
    | cons second rest =>
      intro c member
      rw [String.intercalate_cons_cons, String.toList_append, String.toList_append, List.mem_append,
        List.mem_append] at member
      rcases member with (member | member) | member
      · exact here c member
      · obtain rfl : c = '/' := by simpa using member
        decide
      · exact ih others c member

theorem solid_homePath {m : Location} (named : ∀ name ∈ m.segments, EntryName name) :
    ∀ c ∈ m.homePath.toList, Text.isBlank c = false := by
  have home : ∀ c ∈ "~".toList, Text.isBlank c = false := Text.any_isBlank_eq_false.mp (by decide)
  exact solid_intercalate (List.forall_mem_cons.mpr ⟨home, fun name member => (named name member).solid⟩)

theorem homePath_ne_empty (m : Location) : m.homePath ≠ "" := by
  cases segments : m.segments with
  | nil => simp [homePath, segments]
  | cons name rest => simp [homePath, segments, String.intercalate_cons_cons]

end Location

end PortfolioShell
