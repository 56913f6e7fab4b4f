import PortfolioShell.Proofs.Tree.Paths

/-! # The first flaw

What the check of a root reports. The check visits the children of a directory in their order, and all that is
below a child before it visits the next one. So one child is visited before another exactly when the positions
on the way to it come first in the lexicographic order. `ofRoot_reports`: a root is accepted exactly when it is
a directory and the children of every directory in it are rightly named; else it is reported for the first
visited child whose name is at fault, under the path of the directory that holds this child. -/

namespace PortfolioShell

/-! ### Paths of directories -/

/-- Only the root is written without a slash, so `~` is the path of no other directory. -/
theorem childPath_toText (l : Location) (name : String) : childPath l.toText name = (l.join name).toText := by
  obtain ⟨segments⟩ := l
  cases segments with
  | nil => simp [childPath, Location.toText, Location.isRoot, Location.join]
  | cons first rest =>
    have below : String.join ((first :: rest).map ("/" ++ ·)) ≠ "~" := by
      intro same
      have letters := congrArg String.toList same
      simp at letters
    simp only [childPath, Location.toText, Location.isRoot, Location.join, List.isEmpty_cons, List.cons_append,
      Bool.false_eq_true, if_false, if_neg below]
    simp [String.append_assoc]

namespace Node

/-! ### Visits -/

/-- On the way down from `n` these positions lead past the names to the directory `d`, and `c` is its child at
position `i`. -/
structure Visits (n : Node) (positions : List Nat) (i : Nat) (names : List String) (d c : Node) : Prop where
  reached : n.Reaches positions names d
  child : d.children[i]? = some c

/-- The child of `d` at position `i` has an entry name, and no child before it has the same. -/
structure FitsAt (d : Node) (i : Nat) (c : Node) : Prop where
  named : EntryName c.name
  fresh : ∀ j < i, ∀ e, d.children[j]? = some e → e.name ≠ c.name

/-- The children of `d` have entry names, each its own. -/
structure RightlyNamed (d : Node) : Prop where
  named : ∀ c ∈ d.children, EntryName c.name
  distinct : (d.children.map Node.name).Nodup

/-- All children fit that are visited before the one at this position. -/
def FitsBefore (n : Node) (position : List Nat) : Prop :=
  ∀ positions i names d c, n.Visits positions i names d c → positions ++ [i] < position → d.FitsAt i c

/-- The first visited child that does not fit. -/
structure FirstMisfit (n : Node) (positions : List Nat) (i : Nat) (names : List String) (d c : Node) : Prop where
  visit : n.Visits positions i names d c
  misfit : ¬ d.FitsAt i c
  before : n.FitsBefore (positions ++ [i])

variable {n c d e : Node} {positions position : List Nat} {names : List String} {i k : Nat}

theorem FitsAt.child? (fits : n.FitsAt i c) (child : n.children[i]? = some c) : n.child? c.name = some c := by
  obtain ⟨inside, rfl⟩ := List.getElem?_eq_some_iff.mp child
  refine List.find?_eq_some_iff_getElem.mpr ⟨by simp, i, inside, rfl, fun j earlier => ?_⟩
  have other := fits.fresh j earlier _ (List.getElem?_eq_getElem (Nat.lt_trans earlier inside))
  simpa using other

/-- For the child behind those in `before`. -/
theorem fitsAt_iff {label : Label} {children before rest : List Node} (split : children = before ++ c :: rest) :
    (directory label children).FitsAt before.length c ↔ EntryName c.name ∧ c.name ∉ before.map Node.name := by
  have sibling : ∀ j < before.length, (directory label children).children[j]? = before[j]? := by
    intro j inside
    rw [Node.children, split, List.getElem?_append_left inside]
  constructor
  · intro fits
    refine ⟨fits.named, fun used => ?_⟩
    obtain ⟨e, member, same⟩ := List.mem_map.mp used
    obtain ⟨j, inside, found⟩ := List.getElem_of_mem member
    have listed : before[j]? = some e := found ▸ List.getElem?_eq_getElem inside
    exact fits.fresh j inside e ((sibling j inside).trans listed) same
  · rintro ⟨named, unused⟩
    refine ⟨named, fun j earlier e listed same => unused ?_⟩
    rw [sibling j earlier] at listed
    exact same ▸ List.mem_map_of_mem (List.mem_of_getElem? listed)

theorem RightlyNamed.fitsAt (good : d.RightlyNamed) (child : d.children[i]? = some c) : d.FitsAt i c where
  named := good.named c (List.mem_of_getElem? child)
  fresh j earlier e sibling same := by
    obtain ⟨inside, rfl⟩ := List.getElem?_eq_some_iff.mp child
    obtain ⟨before, rfl⟩ := List.getElem?_eq_some_iff.mp sibling
    have equal : d.children[j] = d.children[i] :=
      List.inj_on_of_nodup_map good.distinct (List.getElem_mem before) (List.getElem_mem inside) same
    have index : j = i := (good.distinct.of_map Node.name).getElem_inj_iff.mp equal
    omega

theorem WellNamed.rightlyNamed (h : n.WellNamed) (reached : n.Reaches positions names d) : d.RightlyNamed := by
  have good : d.WellNamed := (h.descend? (reached.descend? h)).2
  exact ⟨fun c member => good.entryName_of_mem member, good.distinct⟩

/-! ### What comes before a visit -/

/-- A visited child is a child of `n`, or it is visited from one. -/
theorem Visits.cases (visit : n.Visits positions i names d c) :
    (positions = [] ∧ names = [] ∧ n.children[i]? = some c ∧ d = n) ∨
    ∃ k e rest others, positions = k :: rest ∧ names = e.name :: others ∧ n.children[k]? = some e ∧
      e.Visits rest i others d c := by
  obtain ⟨reached, child⟩ := visit
  cases reached with
  | here => exact .inl ⟨rfl, rfl, child, rfl⟩
  | @down _ e _ k rest others above below => exact .inr ⟨k, e, rest, others, rfl, rfl, above, below, child⟩

theorem fitsBefore_zero (n : Node) : n.FitsBefore [0] := by
  intro positions i names d c _ earlier
  obtain ⟨j, rest, key⟩ := List.exists_cons_of_ne_nil (List.append_ne_nil_of_right_ne_nil positions (List.cons_ne_nil i []))
  rw [key] at earlier
  rcases List.cons_lt_cons_iff.mp earlier with smaller | ⟨-, none⟩
  · exact absurd smaller (Nat.not_lt_zero j)
  · exact absurd none (List.not_lt_nil rest)

theorem Visits.down (above : n.children[k]? = some e) (visit : e.Visits positions i names d c) :
    n.Visits (k :: positions) i (e.name :: names) d c :=
  ⟨.down above visit.reached, visit.child⟩

/-- What has been visited before a position in the part of the child `e`: the parts of the children before `e`,
`e` itself, and what is below it. -/
theorem FitsBefore.extend (before : n.FitsBefore [k]) (above : n.children[k]? = some e) (fits : n.FitsAt k e)
    (bound : ∀ j rest, j :: rest < position → j ≤ k)
    (below : ∀ rest j others d c, e.Visits rest j others d c → k :: (rest ++ [j]) < position → d.FitsAt j c) :
    n.FitsBefore position := by
  intro positions i names d c visit earlier
  rcases visit.cases with ⟨rfl, rfl, child, rfl⟩ | ⟨j, f, rest, others, rfl, rfl, child, inner⟩
  · rcases Nat.lt_or_eq_of_le (bound i [] earlier) with smaller | rfl
    · exact before [] i [] d c visit (List.cons_lt_cons_iff.mpr (.inl smaller))
    · obtain rfl := Option.some.inj (above.symm.trans child)
      exact fits
  · rcases Nat.lt_or_eq_of_le (bound j (rest ++ [i]) earlier) with smaller | rfl
    · exact before _ i _ d c visit (List.cons_lt_cons_iff.mpr (.inl smaller))
    · obtain rfl := Option.some.inj (above.symm.trans child)
      exact below rest i others d c inner earlier

theorem FitsBefore.down (before : n.FitsBefore [k]) (above : n.children[k]? = some e) (fits : n.FitsAt k e)
    (inner : e.FitsBefore position) : n.FitsBefore (k :: position) := by
  refine before.extend above fits (fun j rest earlier => ?_) (fun rest j others d c visit earlier => ?_)
  · rcases List.cons_lt_cons_iff.mp earlier with smaller | ⟨rfl, -⟩
    · exact Nat.le_of_lt smaller
    · exact Nat.le_refl j
  · rcases List.cons_lt_cons_iff.mp earlier with smaller | ⟨-, earlier⟩
    · exact absurd smaller (Nat.lt_irrefl k)
    · exact inner rest j others d c visit earlier

theorem FitsBefore.next (before : n.FitsBefore [k]) (above : n.children[k]? = some e) (fits : n.FitsAt k e)
    (good : e.WellNamed) : n.FitsBefore [k + 1] := by
  refine before.extend above fits (fun j rest earlier => ?_) (fun rest j others d c visit _ => ?_)
  · rcases List.cons_lt_cons_iff.mp earlier with smaller | ⟨-, none⟩
    · exact Nat.le_of_lt_succ smaller
    · exact absurd none (List.not_lt_nil rest)
  · exact (good.rightlyNamed visit.reached).fitsAt visit.child

/-- The directories on the way to a visit were visited before it, so the names lead where the positions do. -/
theorem FitsBefore.descend? (before : n.FitsBefore (positions ++ [i])) (reached : n.Reaches positions names d) :
    n.descend? names = some d := by
  induction reached with
  | here n => rfl
  | @down n e d k rest names above below ih =>
    have later : [] < rest ++ [i] := by cases rest <;> exact List.nil_lt_cons _ _
    have first : [k] < k :: (rest ++ [i]) := List.cons_lt_cons_iff.mpr (.inr ⟨rfl, later⟩)
    have fits : n.FitsAt k e := before [] k [] n e ⟨.here n, above⟩ first
    have inner : e.FitsBefore (rest ++ [i]) := fun positions j names d c visit earlier =>
      before (k :: positions) j (e.name :: names) d c (visit.down above)
        (List.cons_lt_cons_iff.mpr (.inr ⟨rfl, earlier⟩))
    rw [Node.descend?, fits.child? above, Option.bind_some, ih inner]

/-- The first misfit below a child is the first one of the node, if nothing before it is one. -/
theorem FirstMisfit.down (before : n.FitsBefore [k]) (above : n.children[k]? = some e) (fits : n.FitsAt k e)
    (first : e.FirstMisfit positions i names d c) : n.FirstMisfit (k :: positions) i (e.name :: names) d c where
  visit := first.visit.down above
  misfit := first.misfit
  before := before.down above fits first.before

end Node

/-! ### Where the check ends -/

mutual

theorem Node.firstMisfit_of_flaw? (l : Location) {err : TreeError} : (n : Node) → n.flaw? l.toText = some err →
    ∃ positions i names d c, n.FirstMisfit positions i names d c ∧
      err = misfitError (Location.toText ⟨l.segments ++ names⟩) c.name
  | .directory label children, found => by
    rw [Node.flaw?] at found
    exact firstMisfit_of_firstFlaw? l label children (List.nil_append children).symm (fun _ => Iff.rfl)
      (Node.fitsBefore_zero _) found

/-- The children in `rest` are checked after those in `before`, whose names are the ones that were seen. -/
theorem firstMisfit_of_firstFlaw? (l : Location) (label : Label) {err : TreeError} {children before : List Node}
    {seen : List String} : (rest : List Node) → (split : children = before ++ rest) →
    (known : ∀ name, name ∈ seen ↔ name ∈ before.map Node.name) →
    (sound : (Node.directory label children).FitsBefore [before.length]) →
    firstFlaw? l.toText seen rest = some err →
    ∃ positions i names d c, (Node.directory label children).FirstMisfit positions i names d c ∧
      err = misfitError (Location.toText ⟨l.segments ++ names⟩) c.name
  | child :: rest, split, known, sound, found => by
    have above : (Node.directory label children).children[before.length]? = some child := by
      simp [Node.children, split]
    have fits_iff : (Node.directory label children).FitsAt before.length child ↔
        isEntryName child.name = true ∧ child.name ∉ seen := by
      rw [isEntryName_iff, known, Node.fitsAt_iff split]
    rw [firstFlaw?_cons] at found
    by_cases fits : (Node.directory label children).FitsAt before.length child
    · rw [if_pos (fits_iff.mp fits), childPath_toText] at found
      cases inner : child.flaw? (l.join child.name).toText with
      | some flaw =>
        obtain rfl : flaw = err := by simpa [inner] using found
        obtain ⟨positions, i, names, d, c, first, rfl⟩ := Node.firstMisfit_of_flaw? (l.join child.name) child inner
        refine ⟨_, i, _, d, c, first.down sound above fits, ?_⟩
        simp [Location.join]
      | none =>
        rw [inner, Option.none_or] at found
        have good : child.WellNamed := (Node.flaw?_eq_none_iff _ child).mp inner
        have longer : children = (before ++ [child]) ++ rest := by simp [split]
        refine firstMisfit_of_firstFlaw? l label rest longer (fun name => ?_) ?_ found
        · simp [known, or_comm]
        · simpa using sound.next above fits good
    · rw [if_neg (mt fits_iff.mpr fits)] at found
      exact ⟨[], before.length, [], _, child, ⟨⟨.here _, above⟩, fits, sound⟩, by simpa using found.symm⟩

end

/-- What the report of a directory says. It is about the first visited child that does not fit, and gives its
name and the path of the directory that holds it, to which the names lead from the root. -/
inductive Node.Reports (root : Node) : TreeError → Prop where
  | invalidName {positions : List Nat} {i : Nat} {names : List String} {d c : Node}
      (first : root.FirstMisfit positions i names d c) (found : root.descend? names = some d)
      (kind : d.isDirectory = true) (bad : ¬ EntryName c.name) :
      Reports root (.invalidName (Location.toText ⟨names⟩) c.name)
  | duplicateName {positions : List Nat} {i j : Nat} {names : List String} {d c e : Node}
      (first : root.FirstMisfit positions i names d c) (found : root.descend? names = some d)
      (kind : d.isDirectory = true) (named : EntryName c.name) (earlier : j < i)
      (sibling : d.children[j]? = some e) (same : e.name = c.name) :
      Reports root (.duplicateName (Location.toText ⟨names⟩) c.name)

theorem Node.FirstMisfit.reports {root d c : Node} {positions : List Nat} {i : Nat} {names : List String}
    (first : root.FirstMisfit positions i names d c) :
    root.Reports (misfitError (Location.toText ⟨names⟩) c.name) := by
  have found : root.descend? names = some d := first.before.descend? first.visit.reached
  have kind : d.isDirectory = true := by
    cases d with
    | directory label children => rfl
    | file label content link => cases first.visit.child
  by_cases named : EntryName c.name
  · rw [misfitError, if_pos (isEntryName_iff.mpr named)]
    -- a child with a good name does not fit only because an earlier one has its name
    have used : ¬ ∀ j < i, ∀ e, d.children[j]? = some e → e.name ≠ c.name := fun fresh =>
      first.misfit ⟨named, fresh⟩
    push Not at used
    obtain ⟨j, earlier, e, sibling, same⟩ := used
    exact .duplicateName first found kind named earlier sibling same
  · rw [misfitError, if_neg (mt isEntryName_iff.mp named)]
    exact .invalidName first found kind named

namespace ContentTree

/-- A root is accepted exactly when it is a directory in which, at every depth, the children have entry names,
each its own. A file is reported as no directory, and a directory with the first flaw in it. -/
theorem ofRoot_reports (root : Node) :
    ((∃ tree, ofRoot root = .ok tree ∧ tree.root = root) ↔ root.isDirectory = true ∧
      ∀ positions names d, root.Reaches positions names d → d.RightlyNamed) ∧
    (root.isDirectory = false → ofRoot root = .error (.rootNotDirectory root.name)) ∧
    (root.isDirectory = true → ∀ err, ofRoot root = .error err → root.Reports err) := by
  have reports : root.isDirectory = true → ∀ err, ofRoot root = .error err →
      ∃ positions i names d c, root.FirstMisfit positions i names d c ∧
        err = misfitError (Location.toText ⟨names⟩) c.name := by
    intro kind err failed
    rw [ofRoot_eq_error_iff, Node.rootFlaw?, if_pos kind] at failed
    exact Node.firstMisfit_of_flaw? .root root failed
  refine ⟨⟨?_, ?_⟩, fun kind => ?_, fun kind err failed => ?_⟩
  · rintro ⟨tree, -, rfl⟩
    exact ⟨tree.isDirectory_root, fun _ _ _ reached => tree.wellNamed_root.rightlyNamed reached⟩
  · rintro ⟨kind, good⟩
    cases made : ofRoot root with
    | ok tree => exact ⟨tree, rfl, ofRoot_eq_ok_iff.mp made⟩
    | error err =>
      obtain ⟨positions, i, names, d, c, first, -⟩ := reports kind err made
      exact absurd ((good positions names d first.visit.reached).fitsAt first.visit.child) first.misfit
  · rw [ofRoot_eq_error_iff, Node.rootFlaw?, kind, if_neg Bool.false_ne_true]
  · obtain ⟨positions, i, names, d, c, first, rfl⟩ := reports kind err failed
    exact first.reports

/-- Of several flaws the first one is reported: before the second `readme` and the name `..` comes what is below
`old`. -/
theorem ofRoot_reports_sample_flaws :
    let flawed (names : List String) := Node.ofChildren "" [.ofChildren "projects" [.ofText "readme" "",
      .ofChildren "old" (names.map (Node.ofText · "")), .ofText "readme" ""], .ofText ".." ""]
    (flawed ["a", "a b"]).isDirectory = true ∧
    ofRoot (flawed ["a", "a b"]) = .error (.invalidName "/projects/old" "a b") ∧
    (flawed ["a", "a b"]).Reports (.invalidName "/projects/old" "a b") ∧
    ofRoot (flawed ["a", "b"]) = .error (.duplicateName "/projects" "readme") ∧
    (flawed ["a", "b"]).Reports (.duplicateName "/projects" "readme") := by
  intro flawed
  have invalid : ofRoot (flawed ["a", "a b"]) = .error (.invalidName "/projects/old" "a b") :=
    ofRoot_eq_error_iff.mpr (by decide +kernel)
  have duplicate : ofRoot (flawed ["a", "b"]) = .error (.duplicateName "/projects" "readme") :=
    ofRoot_eq_error_iff.mpr (by decide +kernel)
  exact ⟨rfl, invalid, (ofRoot_reports _).2.2 rfl _ invalid, duplicate, (ofRoot_reports _).2.2 rfl _ duplicate⟩

end ContentTree

end PortfolioShell
