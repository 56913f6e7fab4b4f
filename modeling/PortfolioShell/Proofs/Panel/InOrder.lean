import Mathlib.Data.List.Sort

/-! # Lists in the order of a time

Sorting by a time that several elements may share. The sort is stable, so it can be cut at any moment and
restricted to any part of the list, and an element that is nowhere exceeded comes last. -/

namespace PortfolioShell

variable {α : Type}

def NoLater (time : α → Nat) (a b : α) : Prop := time a ≤ time b

instance (time : α → Nat) : DecidableRel (NoLater time) := fun a b => inferInstanceAs (Decidable (time a ≤ time b))

instance (time : α → Nat) : Std.Total (NoLater time) := ⟨fun a b => Nat.le_total (time a) (time b)⟩

instance (time : α → Nat) : IsTrans α (NoLater time) := ⟨fun _ _ _ => Nat.le_trans⟩

/-- In the order of a time; of those with the same time the first stays first. -/
def inOrder (time : α → Nat) (l : List α) : List α := l.insertionSort (NoLater time)

variable {time : α → Nat} {a : α}

theorem mem_inOrder {l : List α} : a ∈ inOrder time l ↔ a ∈ l := List.mem_insertionSort _

theorem pairwise_inOrder (l : List α) : (inOrder time l).Pairwise (NoLater time) :=
  List.pairwise_insertionSort _ l

theorem inOrder_cons (a : α) (l : List α) :
    inOrder time (a :: l) = (inOrder time l).orderedInsert (NoLater time) a := rfl

/-! ### Insertion -/

theorem insert_eq_cons {l : List α} (first : ∀ b ∈ l, NoLater time a b) :
    l.orderedInsert (NoLater time) a = a :: l := by
  cases l with
  | nil => rfl
  | cons b rest => exact List.orderedInsert_cons_of_le _ _ (first b List.mem_cons_self)

theorem insert_append_of_later {l : List α} (m : List α) (below : ∀ b ∈ l, ¬ NoLater time a b) :
    (l ++ m).orderedInsert (NoLater time) a = l ++ m.orderedInsert (NoLater time) a := by
  induction l with
  | nil => rfl
  | cons b rest ih =>
    obtain ⟨less, below⟩ := List.forall_mem_cons.mp below
    rw [List.cons_append, List.orderedInsert_of_not_le _ _ less, ih below, List.cons_append]

theorem insert_append_of_noLater (l : List α) {m : List α} (above : ∀ b ∈ m, NoLater time a b) :
    (l ++ m).orderedInsert (NoLater time) a = l.orderedInsert (NoLater time) a ++ m := by
  induction l with
  | nil => exact insert_eq_cons above
  | cons b rest ih =>
    simp only [List.cons_append, List.orderedInsert_cons, ih]
    split <;> rfl

theorem filter_insert (p : α → Bool) {l : List α} (sorted : l.Pairwise (NoLater time)) :
    (l.orderedInsert (NoLater time) a).filter p =
      if p a then (l.filter p).orderedInsert (NoLater time) a else l.filter p := by
  induction l with
  | nil => simp only [List.orderedInsert_nil, List.filter_cons, List.filter_nil]
  | cons b rest ih =>
    obtain ⟨first, sorted⟩ := List.pairwise_cons.mp sorted
    by_cases early : NoLater time a b
    · have least : ∀ c ∈ (b :: rest).filter p, NoLater time a c := by
        intro c member
        rcases List.mem_cons.mp (List.mem_of_mem_filter member) with rfl | later
        · exact early
        · exact Nat.le_trans early (first c later)
      rw [List.orderedInsert_cons_of_le _ _ early, insert_eq_cons least, List.filter_cons]
    · rw [List.orderedInsert_of_not_le _ _ early, List.filter_cons, List.filter_cons, ih sorted]
      cases p b with
      | false => simp only [Bool.false_eq_true, if_false]
      | true =>
        simp only [if_true, List.orderedInsert_of_not_le _ _ early]
        split <;> rfl

/-! ### Sorted lists -/

theorem filter_inOrder (p : α → Bool) (l : List α) : (inOrder time l).filter p = inOrder time (l.filter p) := by
  induction l with
  | nil => rfl
  | cons a rest ih =>
    rw [inOrder_cons, filter_insert p (pairwise_inOrder rest), ih, List.filter_cons]
    split <;> rfl

/-- An element comes last that no earlier one exceeds, and that exceeds all later ones. -/
theorem inOrder_middle {l m : List α} (before : ∀ b ∈ l, time b ≤ time a) (behind : ∀ b ∈ m, time b < time a) :
    inOrder time (l ++ a :: m) = inOrder time (l ++ m) ++ [a] := by
  induction l with
  | nil =>
    have below : ∀ b ∈ inOrder time m, ¬ NoLater time a b := fun b member =>
      Nat.not_le.mpr (behind b (mem_inOrder.mp member))
    have last := insert_append_of_later [] below
    rwa [List.append_nil] at last
  | cons b rest ih =>
    obtain ⟨first, before⟩ := List.forall_mem_cons.mp before
    rw [List.cons_append, inOrder_cons, ih before, insert_append_of_noLater _ (List.forall_mem_singleton.mpr first)]
    rfl

theorem inOrder_cut (moment : Nat) (l : List α) :
    inOrder time l = inOrder time (l.filter (time · ≤ moment)) ++ inOrder time (l.filter (moment < time ·)) := by
  induction l with
  | nil => rfl
  | cons a rest ih =>
    rw [inOrder_cons, ih]
    by_cases early : time a ≤ moment
    · rw [List.filter_cons_of_pos (by simpa using early), List.filter_cons_of_neg (by simpa using early)]
      apply insert_append_of_noLater
      intro b member
      have late := of_decide_eq_true (List.mem_filter.mp (mem_inOrder.mp member)).2
      exact early.trans late.le
    · rw [List.filter_cons_of_neg (by simpa using early), List.filter_cons_of_pos (by simpa using early)]
      apply insert_append_of_later
      intro b member
      have soon := of_decide_eq_true (List.mem_filter.mp (mem_inOrder.mp member)).2
      exact Nat.not_le.mpr (soon.trans_lt (Nat.lt_of_not_le early))

theorem mergeSort_eq_inOrder (l : List α) : l.mergeSort (fun a b => time a ≤ time b) = inOrder time l := by
  have trans (a b c : α) (ab : decide (time a ≤ time b) = true) (bc : decide (time b ≤ time c) = true) :
      decide (time a ≤ time c) = true :=
    decide_eq_true ((of_decide_eq_true ab).trans (of_decide_eq_true bc))
  have total (a b : α) : (decide (time a ≤ time b) || decide (time b ≤ time a)) = true := by
    simpa using Nat.le_total (time a) (time b)
  induction l with
  | nil => exact List.mergeSort_nil
  | cons a rest ih =>
    obtain ⟨before, behind, sorted, others, later⟩ := List.mergeSort_cons trans total a rest
    have order := List.pairwise_mergeSort trans total (a :: rest)
    rw [sorted] at order
    have first : ∀ b ∈ behind, NoLater time a b := fun b member =>
      of_decide_eq_true ((List.pairwise_cons.mp (List.pairwise_append.mp order).2.1).1 b member)
    have past : ∀ b ∈ before, ¬ NoLater time a b := fun b member => by
      simpa [NoLater] using later b member
    rw [inOrder_cons, ← ih, sorted, others, insert_append_of_later behind past, insert_eq_cons first]

theorem map_inOrder {β : Type} (time : α → Nat) (clock : β → Nat) (f : α → β) (same : ∀ a, clock (f a) = time a)
    (l : List α) : (inOrder time l).map f = inOrder clock (l.map f) :=
  List.map_insertionSort _ _ f l fun a _ b _ => by simp only [NoLater, same]

end PortfolioShell
