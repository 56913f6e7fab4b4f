import PortfolioShell.Proofs.Json.RoundTrip
import PortfolioShell.Proofs.Tree.Contents

/-! # A tree that is written is read back

A node is written as an object whose keys are all different, so each member is found again under its key, and
what is missing is the part of the label or the link that the node lacks. The members of the root are read one
by one, those of all other nodes as values; both ways lead back to the same node. -/

namespace PortfolioShell

open Json (Value)

/-! ### Members with different keys -/

theorem once_of_nodup {members : List (String × Value)} (distinct : (members.map Prod.fst).Nodup) (key : String) :
    once members key = .ok (members.lookup key) := by
  have found : members.filter (·.1 = key) = ((members.lookup key).map (key, ·)).toList := by
    induction members with
    | nil => rfl
    | cons m rest ih =>
      obtain ⟨k, v⟩ := m
      obtain ⟨fresh, distinct⟩ := List.nodup_cons.mp distinct
      by_cases same : k = key
      · subst same
        have others : rest.filter (·.1 = k) = [] := List.filter_eq_nil_iff.mpr fun m hm equal =>
          fresh (List.mem_map.mpr ⟨m, hm, of_decide_eq_true equal⟩)
        simp [others]
      · have other : (key == k) = false := beq_false_of_ne (Ne.symm same)
        simp [same, other, List.lookup_cons, ih distinct]
  rw [once, found]
  cases members.lookup key <;> rfl

theorem lookup_optionalMember (key other : String) (text : Option String) :
    (optionalMember key text).lookup other = if other = key then text.map Value.string else none := by
  cases text with
  | none => simp [optionalMember]
  | some s =>
    by_cases same : other = key
    · simp [optionalMember, same]
    · simp [optionalMember, List.lookup_cons, beq_false_of_ne same, same]

theorem keys_optionalMember (key : String) (text : Option String) :
    ((optionalMember key text).map Prod.fst).Sublist [key] := by
  cases text <;> simp [optionalMember]

theorem optionalText_of_lookup {members : List (String × Value)} (distinct : (members.map Prod.fst).Nodup)
    {key : String} {text : Option String} (held : members.lookup key = text.map Value.string) :
    optionalText members key = .ok text := by
  rw [optionalText, once_of_nodup distinct, held]
  cases text <;> rfl

/-! ### The members of a node -/

namespace Node

def members : Node → List (String × Value)
  | .directory label children =>
    [("name", .string label.name), ("kind", .string "directory"),
      ("children", .array (Node.listToJson children))] ++ label.members
  | .file label content link =>
    [("name", .string label.name), ("kind", .string "file"), ("content", content.toJson)] ++
      optionalMember "external_link" link ++ label.members

theorem toJson_eq (n : Node) : n.toJson = .object n.members := by
  cases n <;> rw [toJson, members]

theorem listToJson_eq_map (children : List Node) : listToJson children = children.map toJson := by
  induction children with
  | nil => rfl
  | cons c rest ih => rw [listToJson, ih, List.map_cons]

theorem distinct_members (n : Node) : (n.members.map Prod.fst).Nodup := by
  have labelled (label : Label) : (label.members.map Prod.fst).Sublist ["preview", "description"] := by
    rw [Label.members, List.map_append]
    exact (keys_optionalMember _ _).append (keys_optionalMember _ _)
  cases n with
  | directory label children =>
    have keys : ((Node.directory label children).members.map Prod.fst).Sublist
        (["name", "kind", "children"] ++ ["preview", "description"]) := by
      rw [members, List.map_append]
      exact (List.Sublist.refl _).append (labelled label)
    exact keys.nodup (by decide)
  | file label content link =>
    have keys : ((Node.file label content link).members.map Prod.fst).Sublist
        (["name", "kind", "content"] ++ ["external_link"] ++ ["preview", "description"]) := by
      rw [members, List.map_append, List.map_append]
      exact ((List.Sublist.refl _).append (keys_optionalMember _ link)).append (labelled label)
    exact keys.nodup (by decide)

theorem labelOf_members (n : Node) : labelOf n.members = .ok n.label := by
  have distinct := n.distinct_members
  have name : n.members.lookup "name" = some (.string n.label.name) := by cases n <;> rfl
  have preview : n.members.lookup "preview" = n.label.preview.map Value.string := by
    cases n <;> simp [members, Label.members, List.lookup_append, lookup_optionalMember, List.lookup_cons, label]
  have description : n.members.lookup "description" = n.label.description.map Value.string := by
    cases n <;> simp [members, Label.members, List.lookup_append, lookup_optionalMember, List.lookup_cons, label]
  rw [labelOf, once_of_nodup distinct, name, optionalText_of_lookup distinct preview,
    optionalText_of_lookup distinct description]
  rfl

theorem kindIsDirectory_members (n : Node) : kindIsDirectory n.members = .ok n.isDirectory := by
  have kind : n.members.lookup "kind" = some (.string (if n.isDirectory then "directory" else "file")) := by
    cases n <;> rfl
  rw [kindIsDirectory, once_of_nodup n.distinct_members, kind]
  cases n <;> rfl

theorem nodeOf_directory {childrenOf : Value → Except Json.Fault (List Node)} {label : Label}
    {children : List Node} (below : childrenOf (.array (listToJson children)) = .ok children) :
    nodeOf childrenOf (Node.directory label children).members = .ok (.directory label children) := by
  have held : (Node.directory label children).members.lookup "children" =
      some (.array (listToJson children)) := rfl
  rw [nodeOf, labelOf_members, kindIsDirectory_members, once_of_nodup (distinct_members _), held]
  simp only [bind, Except.bind, isDirectory, if_true, below]
  rfl

theorem nodeOf_file {childrenOf : Value → Except Json.Fault (List Node)} {label : Label} {content : Content}
    {link : Option String} (faithful : content.Faithful) :
    nodeOf childrenOf (Node.file label content link).members = .ok (.file label content link) := by
  have distinct := (Node.file label content link).distinct_members
  have held : (Node.file label content link).members.lookup "content" = some content.toJson := rfl
  have linked : (Node.file label content link).members.lookup "external_link" = link.map Value.string := by
    simp [members, Label.members, List.lookup_append, lookup_optionalMember, List.lookup_cons]
  rw [nodeOf, labelOf_members, kindIsDirectory_members]
  simp only [bind, Except.bind, isDirectory, Bool.false_eq_true, if_false, fileOf, once_of_nodup distinct, held,
    optionalText_of_lookup distinct linked]
  rw [show Content.ofJson content.toJson = content from faithful]
  rfl

theorem listOfJson_listToJson {children : List Node} {fuel : Nat}
    (each : ∀ c ∈ children, Node.ofJson fuel c.toJson = .ok c) :
    Node.listOfJson fuel (.array (listToJson children)) = .ok children := by
  rw [Node.listOfJson, listToJson_eq_map, mapM_eq_ok_iff, List.forall₂_map_left_iff, List.forall₂_same]
  exact each

/-- Each child nests at least two levels less than its parent. -/
theorem nesting_child {label : Label} {children : List Node} {depth : Nat}
    (shallow : (Node.directory label children).toJson.nesting ≤ depth + 1) :
    ∀ c ∈ children, c.toJson.nesting + 1 ≤ depth := by
  rw [toJson_eq, Value.nesting_object_le_iff] at shallow
  have held : ("children", Value.array (listToJson children)) ∈ (Node.directory label children).members := by
    simp [members]
  have array := shallow _ held
  intro c hc
  have listed : c.toJson ∈ listToJson children := listToJson_eq_map children ▸ List.mem_map_of_mem hc
  rw [Value.nesting] at array
  have := Json.nestingOfItems_le_iff.mp (Nat.le_refl _) c.toJson listed
  omega

theorem ofJson_toJson {n : Node} (faithful : n.Every Content.Faithful) {fuel : Nat}
    (shallow : n.toJson.nesting ≤ fuel) : Node.ofJson fuel n.toJson = .ok n := by
  induction faithful generalizing fuel with
  | @file label content link holds =>
    obtain ⟨fuel, rfl⟩ : ∃ k, fuel = k + 1 := ⟨fuel - 1, by rw [toJson_eq, Value.nesting] at shallow; omega⟩
    rw [toJson_eq, Node.ofJson]
    exact nodeOf_file holds
  | @directory label children below ih =>
    obtain ⟨fuel, rfl⟩ : ∃ k, fuel = k + 1 := ⟨fuel - 1, by rw [toJson_eq, Value.nesting] at shallow; omega⟩
    have each : ∀ c ∈ children, Node.ofJson fuel c.toJson = .ok c := fun c hc =>
      ih c hc (by have := nesting_child shallow c hc; omega)
    rw [toJson_eq, Node.ofJson]
    exact nodeOf_directory (listOfJson_listToJson each)

end Node

/-! ### The text of a tree -/

def Content.FloatFree : Content → Prop
  | .text _ => True
  | .rich v => v.FloatFree

namespace Node

theorem mem_optionalMember {key : String} {text : Option String} {m : String × Value}
    (h : m ∈ optionalMember key text) : ∃ s, m.2 = .string s := by
  cases text with
  | none => cases h
  | some s => exact ⟨s, by rw [List.mem_singleton.mp h]⟩

/-- All but one of the members of a node are texts. -/
theorem member_cases {n : Node} {m : String × Value} (h : m ∈ n.members) :
    (∃ s, m.2 = .string s) ∨
      (∃ label children, n = .directory label children ∧ m = ("children", .array (listToJson children))) ∨
      ∃ label content link, n = .file label content link ∧ m = ("content", content.toJson) := by
  have labelled {label : Label} (h : m ∈ label.members) : ∃ s, m.2 = .string s :=
    (List.mem_append.mp h).elim mem_optionalMember mem_optionalMember
  cases n with
  | directory label children =>
    simp only [members, List.cons_append, List.nil_append, List.mem_cons] at h
    rcases h with rfl | rfl | rfl | h
    · exact .inl ⟨_, rfl⟩
    · exact .inl ⟨_, rfl⟩
    · exact .inr (.inl ⟨label, children, rfl, rfl⟩)
    · exact .inl (labelled h)
  | file label content link =>
    simp only [members, List.cons_append, List.nil_append, List.mem_cons, List.mem_append] at h
    rcases h with rfl | rfl | rfl | h | h
    · exact .inl ⟨_, rfl⟩
    · exact .inl ⟨_, rfl⟩
    · exact .inr (.inr ⟨label, content, link, rfl, rfl⟩)
    · exact .inl (mem_optionalMember h)
    · exact .inl (labelled h)

theorem floatFree_toJson {n : Node} (floatFree : n.Every Content.FloatFree) : n.toJson.FloatFree := by
  induction floatFree with
  | @file label content link holds =>
    rw [toJson_eq]
    refine .object fun m hm => ?_
    rcases member_cases hm with ⟨s, text⟩ | ⟨_, _, other, -⟩ | ⟨_, _, _, same, rfl⟩
    · exact text ▸ .string s
    · cases other
    · cases same
      cases content with
      | text s => exact .string s
      | rich v => exact holds
  | @directory label children below ih =>
    rw [toJson_eq]
    refine .object fun m hm => ?_
    rcases member_cases hm with ⟨s, text⟩ | ⟨_, _, same, rfl⟩ | ⟨_, _, _, other, -⟩
    · exact text ▸ .string s
    · cases same
      refine .array fun v hv => ?_
      obtain ⟨c, hc, rfl⟩ := List.mem_map.mp (listToJson_eq_map children ▸ hv)
      exact ih c hc
    · cases other

theorem text_of_eager {n : Node} {m : String × Value} (h : m ∈ n.members) (eager : isEagerKey m.1 = true) :
    ∃ s, m.2 = .string s := by
  rcases member_cases h with text | ⟨_, _, -, rfl⟩ | ⟨_, _, _, -, rfl⟩
  · exact text
  · simp [isEagerKey] at eager
  · simp [isEagerKey] at eager

/-- Each member of a root is read as it was written, whether it is judged at once or later. -/
theorem yields_eagerText (key s : String) :
    Json.Yields (if key = "name" then fun s => (Json.readText s).map fun (text, s) => (some text, s)
      else Json.readOptional Json.readText) (Json.printCompact (.string s)) (some s) := by
  by_cases named : key = "name"
  · simpa [named] using (Json.yields_readText s).map some
  · simpa [named] using Json.yields_readOptional s

theorem appends_readRootMember {n : Node} (floatFree : n.toJson.FloatFree)
    (shallow : n.toJson.nesting ≤ Json.depthLimit) : Json.Appends readRootMember [] n.members := by
  intro first m last split
  obtain ⟨k, v⟩ := m
  have here : (k, v) ∈ n.members := by simp [split]
  rw [toJson_eq] at floatFree shallow
  by_cases eager : isEagerKey k = true
  · obtain ⟨s, rfl⟩ : ∃ s, v = .string s := text_of_eager here eager
    have fresh : first.lookup k = none := List.lookup_eq_none_iff.mpr fun m hm => by
      have distinct := n.distinct_members
      rw [split, List.map_append, List.nodup_append] at distinct
      have other : m.1 ≠ k := distinct.2.2 _ (List.mem_map_of_mem hm) k (by simp)
      simpa using other.symm
    intro rest ends
    have read := ((yields_eagerText k s).afterColon.map fun text => first ++ [(k, Value.optional text)]) rest ends
    simpa [readRootMember, eager, fresh, Value.optional] using read
  · have value : Json.Yields (Json.readValue (Json.depthLimit - 1)) (Json.printCompact v) v := by
      cases floatFree with
      | object below => exact (below _ here).yields (Value.nesting_object_le_iff.mp shallow _ here)
    intro rest ends
    have read := (value.afterColon.map fun v => first ++ [(k, v)]) rest ends
    simpa [readRootMember, eager] using read

theorem readRoot_printCompact {n : Node} (faithful : n.Every Content.Faithful) (floatFree : n.toJson.FloatFree)
    (shallow : n.toJson.nesting ≤ Json.depthLimit) : readRoot (Json.printCompact n.toJson) = .ok (n, []) := by
  have members := Json.yields_printMembers (appends_readRootMember floatFree shallow) [] Json.ends_nil
  have made : nodeOf (Node.listOfJson Json.depthLimit) n.members = .ok n := by
    have made := ofJson_toJson faithful (Nat.le_succ_of_le shallow)
    rwa [toJson_eq, Node.ofJson] at made
  rw [List.append_nil] at members
  rw [toJson_eq, Json.printCompact, readRoot, Json.readObjectOf, Json.skipBlanks_cons (by decide)]
  simp only [members, made, bind, Except.bind]

end Node

/-- Writing a tree and reading its text gives the same tree, where the tree has come from a text or from the
builders, holds no floating-point number and does not nest deeper than a text may. -/
theorem ContentTree.read_toText (tree : ContentTree)
    (source : (∃ text, ContentTree.read text = .ok tree) ∨
      tree.root.Built ∧ tree.root.Every fun c => ¬ c.IsBareText)
    (floatFree : tree.root.Every Content.FloatFree) (shallow : tree.root.toJson.nesting ≤ 127) :
    ContentTree.read tree.toText = .ok tree := by
  have faithful : tree.root.Every Content.Faithful := by
    rcases source with ⟨text, loaded⟩ | ⟨built, others⟩
    · exact every_faithful_of_read loaded
    · exact built.every_ordered.imp₂ others fun _ => Content.faithful_of_ordered
  have read : Json.readDocument readRoot tree.toText = .ok tree.root :=
    Json.readDocument_eq_ok_iff.mpr ⟨[], by
      rw [toText, Value.compact, String.toList_ofList]
      exact Node.readRoot_printCompact faithful (Node.floatFree_toJson floatFree) shallow, rfl⟩
  have checked : ContentTree.ofRoot tree.root = .ok tree := ofRoot_eq_ok_iff.mpr rfl
  rw [ContentTree.read, read]
  simp only [Except.mapError, bind, Except.bind, checked]

/-- Such a tree, with null as rich content, a link, a description and a directory below the root. -/
theorem ContentTree.read_toText_nothing :
    ∃ tree : ContentTree,
      tree.root = Node.ofChildren "" [(Node.ofContent "nothing" (.rich .null)).linkedTo "about:blank",
        (Node.ofChildren "notes" [Node.ofText "today" "one\ntwo"]).describedAs "kept"] ∧
      (tree.root.Built ∧ tree.root.Every fun c => ¬ c.IsBareText) ∧ tree.root.Every Content.FloatFree ∧
      tree.root.toJson.nesting ≤ 127 ∧ ContentTree.read tree.toText = .ok tree := by
  let nothing := (Node.ofContent "nothing" (.rich .null)).linkedTo "about:blank"
  let notes := (Node.ofChildren "notes" [Node.ofText "today" "one\ntwo"]).describedAs "kept"
  let tree : ContentTree := ⟨Node.ofChildren "" [nothing, notes], by decide⟩
  have built : tree.root.Built := by
    have today : (Node.ofText "today" "one\ntwo").Built := .ofContent "today" _ trivial
    have first : nothing.Built := (Node.Built.ofContent "nothing" (.rich .null) Value.Ordered.null).linkedTo
      "about:blank"
    have second : notes.Built := (Node.Built.ofChildren "notes" (by simpa using today)).describedAs "kept"
    exact .ofChildren "" (by simpa using ⟨first, second⟩)
  have every {P : Content → Prop} (rich : P (.rich .null)) (text : P (.text "one\ntwo")) : tree.root.Every P := by
    have first : nothing.Every P := .file rich
    have today : (Node.ofText "today" "one\ntwo").Every P := .file text
    have second : notes.Every P := .directory (by simpa using today)
    exact .directory (by simpa using ⟨first, second⟩)
  have others : tree.root.Every fun c => ¬ c.IsBareText :=
    every (by rintro ⟨s, same⟩; cases same) (by rintro ⟨s, same⟩; cases same)
  have floatFree : tree.root.Every Content.FloatFree := every Value.FloatFree.null trivial
  have shallow : tree.root.toJson.nesting ≤ 127 := by decide
  exact ⟨tree, rfl, ⟨built, others⟩, floatFree, shallow,
    ContentTree.read_toText tree (.inr ⟨built, others⟩) floatFree shallow⟩

end PortfolioShell
