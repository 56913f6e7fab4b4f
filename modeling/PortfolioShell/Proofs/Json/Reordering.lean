import PortfolioShell.Proofs.Json.Canonical

/-! # The order of members

A value is distinct when no object in it, at any depth, has two members with one key. The members of the objects in a
distinct value may then be put in any order: the canonical form stays the same (`Reordered.canonical_eq`). -/

namespace PortfolioShell.Json

inductive Value.Distinct : Value → Prop where
  | null : Distinct .null
  | bool (b : Bool) : Distinct (.bool b)
  | number (n : Number) : Distinct (.number n)
  | string (s : String) : Distinct (.string s)
  | array {items : List Value} (below : ∀ v ∈ items, v.Distinct) : Distinct (.array items)
  | object {members : List (String × Value)} (keys : (members.map Prod.fst).Nodup)
      (below : ∀ m ∈ members, m.2.Distinct) : Distinct (.object members)

namespace Value

theorem distinct_array_iff {items : List Value} : (Value.array items).Distinct ↔ ∀ v ∈ items, v.Distinct :=
  ⟨fun h => by cases h with | array below => exact below, .array⟩

theorem distinct_object_iff {members : List (String × Value)} :
    (Value.object members).Distinct ↔ (members.map Prod.fst).Nodup ∧ ∀ m ∈ members, m.2.Distinct :=
  ⟨fun h => by cases h with | object keys below => exact ⟨keys, below⟩, fun h => .object h.1 h.2⟩

/-- The members of one object in the value, at any depth, are put in another order. -/
inductive Reordered : Value → Value → Prop where
  | here {members others : List (String × Value)} (perm : members.Perm others) :
      Reordered (.object members) (.object others)
  | item {before after : List Value} {v w : Value} (inner : Reordered v w) :
      Reordered (.array (before ++ v :: after)) (.array (before ++ w :: after))
  | member {before after : List (String × Value)} {key : String} {v w : Value} (inner : Reordered v w) :
      Reordered (.object (before ++ (key, v) :: after)) (.object (before ++ (key, w) :: after))

def IsContainer : Value → Prop
  | .array _ | .object _ => True
  | _ => False

namespace Reordered

variable {v w : Value}

theorem containers (h : Reordered v w) : v.IsContainer ∧ w.IsContainer := by
  cases h <;> exact ⟨trivial, trivial⟩

theorem distinct_iff (h : Reordered v w) : v.Distinct ↔ w.Distinct := by
  induction h with
  | here perm =>
    rw [distinct_object_iff, distinct_object_iff, (perm.map Prod.fst).nodup_iff]
    exact and_congr_right fun _ => forall_congr' fun m => imp_congr_left perm.mem_iff
  | item inner ih => simp only [distinct_array_iff, List.forall_mem_append, List.forall_mem_cons, ih]
  | member inner ih =>
    simp only [distinct_object_iff, List.map_append, List.map_cons, List.forall_mem_append, List.forall_mem_cons, ih]

end Reordered

/-! ### Canonical forms -/

end Value

theorem canonicalItems_eq_map (items : List Value) : canonicalItems items = items.map Value.canonical := by
  induction items with
  | nil => rfl
  | cons v rest ih => rw [canonicalItems, ih, List.map_cons]

theorem canonicalMembers_eq_placeAll (members placed : List (String × Value)) :
    canonicalMembers members placed = placeAll placed (members.map fun m => (m.1, m.2.canonical)) := by
  induction members generalizing placed with
  | nil => rw [canonicalMembers]; rfl
  | cons m rest ih => rw [canonicalMembers, ih]; rfl

theorem Value.Reordered.canonical_eq {v w : Value} (h : Reordered v w) (distinct : v.Distinct) :
    v.canonical = w.canonical := by
  induction h with
  | @here members others perm =>
    have keys : ((members.map fun m => (m.1, m.2.canonical)).map Prod.fst).Nodup := by
      rw [List.map_map]
      exact (distinct_object_iff.mp distinct).1
    rw [canonical, canonical, canonicalMembers_eq_placeAll, canonicalMembers_eq_placeAll,
      placeAll_eq_of_perm keys (perm.map _)]
  | item inner ih =>
    have below := distinct_array_iff.mp distinct _ (List.mem_append_right _ List.mem_cons_self)
    rw [canonical, canonical, canonicalItems_eq_map, canonicalItems_eq_map, List.map_append, List.map_append,
      List.map_cons, List.map_cons, ih below]
  | member inner ih =>
    have below := (distinct_object_iff.mp distinct).2 _ (List.mem_append_right _ List.mem_cons_self)
    rw [canonical, canonical, canonicalMembers_eq_placeAll, canonicalMembers_eq_placeAll, List.map_append,
      List.map_append, List.map_cons, List.map_cons, ih below]

end PortfolioShell.Json
