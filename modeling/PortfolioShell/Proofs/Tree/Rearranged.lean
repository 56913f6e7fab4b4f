import PortfolioShell.Proofs.Json.RoundTrip
import PortfolioShell.Proofs.Tree.Members
import PortfolioShell.Proofs.Tree.Reading
import Mathlib.Logic.Relation

/-! # Texts of one tree

A text of a tree may be rearranged: the members of any object in it are put in another order, and a node is given
members that do not matter to it. The tree that is read stays the same, and a text that holds none still holds none
(`ContentTree.read_rearranged`). Only what the value of the text is counts, although the members of the root are judged
while they are read and all others later. -/

namespace PortfolioShell

open Json (Value bind_eq_ok_iff)

/-! ### Values of one node -/

namespace Node

theorem ofJson_object (fuel : Nat) (members : List (String × Value)) :
    ofJson (fuel + 1) (.object members) = nodeOf (listOfJson fuel) members := by
  rw [ofJson]

theorem listOfJson_replace {fuel : Nat} {v w : Value} (same : ofJson fuel v = ofJson fuel w) (before after : List Value) :
    listOfJson fuel (.array (before ++ v :: after)) = listOfJson fuel (.array (before ++ w :: after)) := by
  simp only [listOfJson, List.mapM_append, List.mapM_cons, same]

/-- Where one value stands for another under a key, and the two are alike there, the node is the same. -/
theorem ofJson_replace {key : String} {v w : Value} (first : v.IsContainer) (second : w.IsContainer)
    (content : key = "content" → v.canonical = w.canonical)
    (children : key = "children" → ∀ fuel, listOfJson fuel v = listOfJson fuel w)
    (before after : List (String × Value)) (fuel : Nat) :
    ofJson fuel (.object (before ++ (key, v) :: after)) = ofJson fuel (.object (before ++ (key, w) :: after)) := by
  cases fuel with
  | zero => rw [ofJson, ofJson]
  | succ fuel =>
    rw [ofJson_object, ofJson_object]
    refine nodeOf_congr fun other _ => ?_
    rcases once_replace before after key v w other with same | ⟨rfl, left, right⟩
    · exact .inl same
    · exact .inr ⟨v, w, left, right, first, second, content, fun isKey => children isKey fuel⟩

/-- Both as a node and as the children of one, a value is the same with its members in another order. -/
theorem ofJson_reordered {v w : Value} (h : v.Reordered w) (distinct : v.Distinct) :
    (∀ fuel, ofJson fuel v = ofJson fuel w) ∧ ∀ fuel, listOfJson fuel v = listOfJson fuel w := by
  induction h with
  | here perm =>
    refine ⟨fun fuel => ?_, fun fuel => by rw [listOfJson, listOfJson] <;> simp⟩
    cases fuel with
    | zero => rw [ofJson, ofJson]
    | succ fuel =>
      rw [ofJson_object, ofJson_object]
      exact nodeOf_congr fun key _ => .inl (once_eq_of_perm perm key)
  | item inner ih =>
    have below := Value.distinct_array_iff.mp distinct _ (List.mem_append_right _ List.mem_cons_self)
    refine ⟨fun fuel => ?_, fun fuel => listOfJson_replace ((ih below).1 fuel) _ _⟩
    cases fuel <;> rw [ofJson, ofJson] <;> simp
  | member inner ih =>
    have below := (Value.distinct_object_iff.mp distinct).2 _ (List.mem_append_right _ List.mem_cons_self)
    refine ⟨fun fuel => ?_, fun fuel => by rw [listOfJson, listOfJson] <;> simp⟩
    exact ofJson_replace inner.containers.1 inner.containers.2 (fun _ => inner.canonical_eq below)
      (fun _ => (ih below).2) _ _ fuel

end Node

/-- One change to the value of a node that does not matter: the members of some object are put in another order, the
node or one below it is given a member that does not matter to it, under a key that it does not have. -/
inductive Rearranged : Value → Value → Prop where
  | reordered {v w : Value} (h : v.Reordered w) : Rearranged v w
  | ignored {members : List (String × Value)} {key : String} {v : Value} (other : ¬ Matters members key)
      (fresh : key ∉ members.map Prod.fst) (distinct : v.Distinct) :
      Rearranged (.object members) (.object ((key, v) :: members))
  | child {before after : List (String × Value)} {left right : List Value} {v w : Value} (inner : Rearranged v w) :
      Rearranged (.object (before ++ ("children", .array (left ++ v :: right)) :: after))
        (.object (before ++ ("children", .array (left ++ w :: right)) :: after))

namespace Rearranged

variable {v w : Value}

theorem distinct_iff (h : Rearranged v w) : v.Distinct ↔ w.Distinct := by
  induction h with
  | reordered h => exact h.distinct_iff
  | ignored other fresh distinct =>
    simp only [Value.distinct_object_iff, List.map_cons, List.nodup_cons, List.forall_mem_cons, fresh, distinct,
      not_false_eq_true, true_and]
  | child inner ih =>
    simp only [Value.distinct_object_iff, Value.distinct_array_iff, List.map_append, List.map_cons,
      List.forall_mem_append, List.forall_mem_cons, ih]

theorem nodeOf_ignored {childrenOf : Value → Except Json.Fault (List Node)} {members : List (String × Value)}
    {key : String} (other : ¬ Matters members key) (v : Value) :
    nodeOf childrenOf members = nodeOf childrenOf ((key, v) :: members) :=
  nodeOf_congr fun name matters =>
    .inl (once_cons_of_ne fun same : key = name => other (same ▸ matters)).symm

theorem ofJson_eq (h : Rearranged v w) (distinct : v.Distinct) (fuel : Nat) :
    Node.ofJson fuel v = Node.ofJson fuel w := by
  induction h generalizing fuel with
  | reordered h => exact (Node.ofJson_reordered h distinct).1 fuel
  | ignored other fresh held =>
    cases fuel with
    | zero => rw [Node.ofJson, Node.ofJson]
    | succ fuel =>
      rw [Node.ofJson_object, Node.ofJson_object]
      exact nodeOf_ignored other _
  | child inner ih =>
    have array := (Value.distinct_object_iff.mp distinct).2 _ (List.mem_append_right _ List.mem_cons_self)
    have below := Value.distinct_array_iff.mp array _ (List.mem_append_right _ List.mem_cons_self)
    have isArray (items : List Value) : (Value.array items).IsContainer := trivial
    exact Node.ofJson_replace (isArray _) (isArray _) (fun same => absurd same (by decide))
      (fun _ fuel => Node.listOfJson_replace (ih below fuel) _ _) _ _ fuel

/-- Any number of such changes, made or taken back. -/
theorem ofJson_eq_of_eqvGen (h : Relation.EqvGen Rearranged v w) (distinct : v.Distinct) :
    w.Distinct ∧ ∀ fuel, Node.ofJson fuel v = Node.ofJson fuel w := by
  have both : (v.Distinct ↔ w.Distinct) ∧ (v.Distinct → ∀ fuel, Node.ofJson fuel v = Node.ofJson fuel w) := by
    clear distinct
    induction h with
    | rel v w h => exact ⟨h.distinct_iff, fun distinct => h.ofJson_eq distinct⟩
    | refl v => exact ⟨.rfl, fun _ _ => rfl⟩
    | symm v w _ ih => exact ⟨ih.1.symm, fun distinct fuel => (ih.2 (ih.1.mpr distinct) fuel).symm⟩
    | trans u v w _ _ first second =>
      exact ⟨first.1.trans second.1, fun distinct fuel =>
        (first.2 distinct fuel).trans (second.2 (first.1.mp distinct) fuel)⟩
  exact ⟨both.1.mp distinct, both.2 distinct⟩

end Rearranged

/-! ### Texts of one tree -/

/-- Two texts whose values differ only in the order of members, in whatever objects, and in members that do not matter
to the nodes that have them, are read in the same way: both give the same tree, or both fail alike. -/
theorem ContentTree.read_rearranged {text other : String} {v w : Value} (first : Value.read text = .ok v)
    (second : Value.read other = .ok w) (distinct : v.Distinct) (rearranged : Relation.EqvGen Rearranged v w) :
    ContentTree.read text = ContentTree.read other := by
  rw [ContentTree.read, ContentTree.read, readDocument_readRoot first, readDocument_readRoot second,
    (Rearranged.ofJson_eq_of_eqvGen rearranged distinct).2]

/-- A file that is given children, which are none, in a root whose members come the other way round. -/
theorem ContentTree.read_rearranged_in_sample :
    let file := [("content", .null), ("name", .string "a"), ("kind", .string "file")]
    let v := Value.object [("name", .string ""), ("kind", .string "directory"), ("children", .array [.object file])]
    let w := Value.object [("children", .array [.object (("children", .bool true) :: file)]),
      ("kind", .string "directory"), ("name", .string "")]
    Value.read v.compact = .ok v ∧ Value.read w.compact = .ok w ∧ v.Distinct ∧ Relation.EqvGen Rearranged v w ∧
      ContentTree.read v.compact = ContentTree.read w.compact := by
  intro file v w
  have first : Value.read v.compact = .ok v := Value.read_compact (.object (by
    simpa using ⟨.string _, .string _, .array (by
      simpa using .object (by simpa [file] using ⟨.null, .string _, .string _⟩))⟩)) (by decide)
  have second : Value.read w.compact = .ok w := Value.read_compact (.object (by
    simpa using ⟨.array (by
      simpa using .object (by simpa [file] using ⟨.bool _, .null, .string _, .string _⟩)), .string _, .string _⟩)) (by decide)
  have distinct : v.Distinct := .object (by decide) (by
    simpa using ⟨.string _, .string _, .array (by
      simpa using .object (by decide) (by simpa [file] using ⟨.null, .string _, .string _⟩))⟩)
  have ignored : ¬ Matters file "children" := by
    have kind : kindIsDirectory file = .ok false := rfl
    rintro (known | ⟨directory, -⟩ | ⟨-, known⟩)
    · exact absurd known (by decide)
    · rw [kind] at directory
      cases directory
    · exact absurd known (by decide)
  have child := @Rearranged.child [("name", .string ""), ("kind", .string "directory")] [] [] [] _ _
    (.ignored ignored (by decide) (.bool true))
  have rearranged : Relation.EqvGen Rearranged v w :=
    .trans _ _ _ (.rel _ _ child) (.rel _ _ (.reordered (.here (List.reverse_perm _).symm)))
  exact ⟨first, second, distinct, rearranged, ContentTree.read_rearranged first second distinct rearranged⟩

end PortfolioShell
