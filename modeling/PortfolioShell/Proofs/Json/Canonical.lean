import PortfolioShell.Json.Value
import Mathlib.Data.List.Basic
import Mathlib.Tactic.SplitIfs

/-! # Values in canonical form

A value is ordered when every object in it, at any depth, has its keys in strictly increasing order. The
canonical form of a value is ordered, and a value that is ordered is its own canonical form: putting the
members of an ordered object in place one after the other adds each of them at the end. -/

namespace PortfolioShell.Json

inductive Value.Ordered : Value → Prop where
  | null : Ordered .null
  | bool (b : Bool) : Ordered (.bool b)
  | number (n : Number) : Ordered (.number n)
  | string (s : String) : Ordered (.string s)
  | array {items : List Value} (below : ∀ v ∈ items, v.Ordered) : Ordered (.array items)
  | object {members : List (String × Value)} (keys : members.Pairwise (·.1 < ·.1))
      (below : ∀ m ∈ members, m.2.Ordered) : Ordered (.object members)

mutual

theorem Value.ordered_canonical : (v : Value) → v.canonical.Ordered
  | .null => .null
  | .bool b => .bool b
  | .number n => .number n
  | .string s => .string s
  | .array items => .array (ordered_canonicalItems items)
  | .object members =>
    have placed := ordered_canonicalMembers members [] .nil (fun _ hm => absurd hm List.not_mem_nil)
    .object placed.1 placed.2

theorem ordered_canonicalItems : (items : List Value) → ∀ v ∈ canonicalItems items, v.Ordered
  | [] => fun _ hv => absurd hv List.not_mem_nil
  | v :: rest => List.forall_mem_cons.mpr ⟨v.ordered_canonical, ordered_canonicalItems rest⟩

/-- The members that have been put in place stay in order, whatever comes after them. -/
theorem ordered_canonicalMembers : (members placed : List (String × Value)) →
    placed.Pairwise (·.1 < ·.1) → (∀ m ∈ placed, m.2.Ordered) →
    (canonicalMembers members placed).Pairwise (·.1 < ·.1) ∧
      ∀ m ∈ canonicalMembers members placed, m.2.Ordered
  | [], _, keys, below => ⟨keys, below⟩
  | (k, v) :: rest, placed, keys, below =>
    ordered_canonicalMembers rest (putMember k v.canonical placed) (ordered_putMember keys) fun m hm =>
      (mem_putMember hm).elim (fun same => same ▸ v.ordered_canonical) (below m)

end

/-! ### Ordered values stay as they are -/

theorem putMember_of_greater {α : Type} {key : String} {value : α} {members : List (String × α)}
    (greater : ∀ m ∈ members, m.1 < key) : putMember key value members = members ++ [(key, value)] := by
  induction members with
  | nil => rfl
  | cons head rest ih =>
    obtain ⟨below, greater⟩ := List.forall_mem_cons.mp greater
    have notBefore : ¬ key < head.1 := fun above => String.lt_irrefl key (String.lt_trans above below)
    have differ : key ≠ head.1 := fun same => String.lt_irrefl key (same ▸ below)
    rw [putMember, if_neg notBefore, if_neg differ, ih greater, List.cons_append]

theorem canonicalItems_eq_self {items : List Value} (each : ∀ v ∈ items, v.canonical = v) :
    canonicalItems items = items := by
  induction items with
  | nil => rfl
  | cons v rest ih =>
    obtain ⟨same, each⟩ := List.forall_mem_cons.mp each
    rw [canonicalItems, same, ih each]

theorem canonicalMembers_eq_append {members placed : List (String × Value)}
    (keys : (placed ++ members).Pairwise (·.1 < ·.1)) (each : ∀ m ∈ members, m.2.canonical = m.2) :
    canonicalMembers members placed = placed ++ members := by
  induction members generalizing placed with
  | nil => rw [canonicalMembers, List.append_nil]
  | cons head rest ih =>
    obtain ⟨k, v⟩ := head
    obtain ⟨same, each⟩ := List.forall_mem_cons.mp each
    have greater : ∀ m ∈ placed, m.1 < k := fun m hm =>
      (List.pairwise_append.mp keys).2.2 m hm (k, v) List.mem_cons_self
    have split : placed ++ (k, v) :: rest = placed ++ [(k, v)] ++ rest := List.append_cons placed (k, v) rest
    rw [canonicalMembers, same, putMember_of_greater greater, ih (split ▸ keys) each, split]

theorem Value.Ordered.canonical_eq {v : Value} (h : v.Ordered) : v.canonical = v := by
  induction h with
  | null | bool | number | string => rfl
  | array below ih => rw [canonical, canonicalItems_eq_self ih]
  | object keys below ih => rw [canonical, @canonicalMembers_eq_append _ [] keys ih, List.nil_append]

/-! ### Members in any order -/

section

variable {α : Type} {members placed : List (String × α)}

theorem perm_putMember {key : String} {value : α} (fresh : key ∉ members.map Prod.fst) :
    (putMember key value members).Perm ((key, value) :: members) := by
  induction members with
  | nil => exact .refl _
  | cons head rest ih =>
    rw [List.map_cons, List.mem_cons, not_or] at fresh
    obtain ⟨other, fresh⟩ := fresh
    rw [putMember]
    split_ifs with before
    · exact .refl _
    · exact ((ih fresh).cons head).trans (.swap _ _ _)

def placeAll (placed members : List (String × α)) : List (String × α) :=
  members.foldl (fun placed m => putMember m.1 m.2 placed) placed

theorem ordered_placeAll (ordered : placed.Pairwise (·.1 < ·.1)) : (placeAll placed members).Pairwise (·.1 < ·.1) := by
  induction members generalizing placed with
  | nil => exact ordered
  | cons m rest ih => exact ih (ordered_putMember ordered)

theorem perm_placeAll (distinct : ((members ++ placed).map Prod.fst).Nodup) :
    (placeAll placed members).Perm (members ++ placed) := by
  induction members generalizing placed with
  | nil => exact .refl _
  | cons m rest ih =>
    have fresh : m.1 ∉ (rest ++ placed).map Prod.fst := (List.nodup_cons.mp distinct).1
    rw [List.map_append, List.mem_append, not_or] at fresh
    have put : (putMember m.1 m.2 placed).Perm (m :: placed) := perm_putMember fresh.2
    have around : (rest ++ putMember m.1 m.2 placed).Perm (m :: rest ++ placed) :=
      (put.append_left rest).trans List.perm_middle
    exact (ih ((around.map Prod.fst).nodup_iff.mpr distinct)).trans around

/-- Members whose keys are in order are the same when they are the same in some order. -/
theorem eq_of_perm_of_ordered {l m : List (String × α)} (first : l.Pairwise (·.1 < ·.1))
    (second : m.Pairwise (·.1 < ·.1)) (perm : l.Perm m) : l = m :=
  perm.eq_of_pairwise (fun _ _ _ _ below above => absurd below (String.lt_asymm above)) first second

/-- Whatever order members with different keys come in, they are put in place in the same way. -/
theorem placeAll_eq_of_perm (distinct : (members.map Prod.fst).Nodup) {others : List (String × α)}
    (perm : members.Perm others) : placeAll [] members = placeAll [] others := by
  have same : (others.map Prod.fst).Nodup := (perm.map Prod.fst).nodup_iff.mp distinct
  have first : (placeAll [] members).Perm (members ++ []) := perm_placeAll (by simpa using distinct)
  have second : (placeAll [] others).Perm (others ++ []) := perm_placeAll (by simpa using same)
  rw [List.append_nil] at first second
  exact eq_of_perm_of_ordered (ordered_placeAll .nil) (ordered_placeAll .nil)
    (first.trans (perm.trans second.symm))

end

end PortfolioShell.Json
