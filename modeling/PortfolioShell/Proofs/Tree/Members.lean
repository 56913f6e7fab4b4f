import PortfolioShell.Proofs.Json.Reordering
import PortfolioShell.Proofs.Tree.Contents

/-! # Which members make a node

A node is made from what its object holds under a few keys, once each. The order of the members does not matter, and
neither do members with other keys: unknown ones, and those that only nodes of the other kind have. Two values that are
no texts and differ in the order of their members are the same to a node. -/

namespace PortfolioShell

open Json (Value bind_eq_ok_iff)

/-! ### One member -/

theorem once_eq_of_perm {members others : List (String × Value)} (perm : members.Perm others) (key : String) :
    once members key = once others key := by
  have held := perm.filter (·.1 = key)
  rw [once, once]
  generalize members.filter (·.1 = key) = l at held
  generalize others.filter (·.1 = key) = m at held
  match l, m, held with
  | [], [], _ => rfl
  | [x], [y], held => rw [List.singleton_perm.mp held]
  | [], _ :: _, held | _ :: _, [], held | [_], _ :: _ :: _, held | _ :: _ :: _, [_], held => simpa using held.length_eq
  | _ :: _ :: _, _ :: _ :: _, _ => rfl

theorem once_cons_of_ne {members : List (String × Value)} {m : String × Value} {key : String} (other : m.1 ≠ key) :
    once (m :: members) key = once members key := by
  rw [once, once, List.filter_cons_of_neg (by simpa using other)]

/-- What is found under a key is the same to a node: equal, or arrays and objects with the same content or the same
children. -/
def Alike (childrenOf : Value → Except Json.Fault (List Node)) (members others : List (String × Value)) (key : String) :
    Prop :=
  once members key = once others key ∨
    ∃ v w, once members key = .ok (some v) ∧ once others key = .ok (some w) ∧ v.IsContainer ∧ w.IsContainer ∧
      (key = "content" → v.canonical = w.canonical) ∧ (key = "children" → childrenOf v = childrenOf w)

theorem once_replace (before after : List (String × Value)) (k : String) (v w : Value) (key : String) :
    once (before ++ (k, v) :: after) key = once (before ++ (k, w) :: after) key ∨
      k = key ∧ once (before ++ (k, v) :: after) key = .ok (some v) ∧
        once (before ++ (k, w) :: after) key = .ok (some w) := by
  by_cases same : k = key
  · subst same
    simp only [once, List.filter_append, List.filter_cons, decide_true, if_true]
    generalize before.filter (·.1 = k) = l
    generalize after.filter (·.1 = k) = m
    match l, m with
    | [], [] => exact .inr ⟨trivial, rfl, rfl⟩
    | [], _ :: _ | [_], _ | _ :: _ :: _, _ => exact .inl rfl
  · have other : decide (k = key) = false := decide_eq_false same
    simp only [once, List.filter_append, List.filter_cons, other, Bool.false_eq_true, if_false, true_or]

section

variable {members : List (String × Value)} {key : String} {v : Value}

theorem optionalText_of_container (held : once members key = .ok (some v)) (container : v.IsContainer) :
    optionalText members key = .error .unfit := by
  rw [optionalText, held]
  cases v with
  | array | object => rfl
  | _ => exact container.elim

theorem kindIsDirectory_of_container (held : once members "kind" = .ok (some v)) (container : v.IsContainer) :
    kindIsDirectory members = .error .unfit := by
  rw [kindIsDirectory, held]
  cases v with
  | array | object => rfl
  | _ => exact container.elim

theorem labelOf_of_container (held : once members "name" = .ok (some v)) (container : v.IsContainer) :
    labelOf members = .error .unfit := by
  rw [labelOf, held]
  cases v with
  | array | object => rfl
  | _ => exact container.elim

theorem ofJson_of_container (container : v.IsContainer) : Content.ofJson v = .rich v.canonical := by
  cases v with
  | array | object => rfl
  | _ => exact container.elim

end

/-! ### All members of a node -/

/-- The keys that matter in an object of a node. -/
def Matters (members : List (String × Value)) (key : String) : Prop :=
  key ∈ ["name", "kind", "preview", "description"] ∨
    (kindIsDirectory members = .ok true ∧ key = "children") ∨
      (kindIsDirectory members = .ok false ∧ key ∈ ["content", "external_link"])

section

variable {childrenOf : Value → Except Json.Fault (List Node)} {members others : List (String × Value)}

theorem optionalText_congr {key : String} (alike : Alike childrenOf members others key) :
    optionalText members key = optionalText others key := by
  rcases alike with same | ⟨v, w, left, right, first, second, -⟩
  · rw [optionalText, optionalText, same]
  · rw [optionalText_of_container left first, optionalText_of_container right second]

theorem kindIsDirectory_congr (alike : Alike childrenOf members others "kind") :
    kindIsDirectory members = kindIsDirectory others := by
  rcases alike with same | ⟨v, w, left, right, first, second, -⟩
  · rw [kindIsDirectory, kindIsDirectory, same]
  · rw [kindIsDirectory_of_container left first, kindIsDirectory_of_container right second]

variable (alike : ∀ key, Matters members key → Alike childrenOf members others key)

include alike

theorem labelOf_congr : labelOf members = labelOf others := by
  have preview := optionalText_congr (alike "preview" (.inl (by decide)))
  have description := optionalText_congr (alike "description" (.inl (by decide)))
  rcases alike "name" (.inl (by decide)) with same | ⟨v, w, left, right, first, second, -⟩
  · rw [labelOf, labelOf, same, preview, description]
  · rw [labelOf_of_container left first, labelOf_of_container right second]

theorem fileOf_congr (file : kindIsDirectory members = .ok false) (label : Label) :
    fileOf label members = fileOf label others := by
  have link := optionalText_congr (alike "external_link" (.inr (.inr ⟨file, by decide⟩)))
  rw [fileOf, fileOf, link]
  rcases alike "content" (.inr (.inr ⟨file, by decide⟩)) with same | ⟨v, w, left, right, first, second, canonical, -⟩
  · rw [same]
  · have content : Content.ofJson v = Content.ofJson w := by
      rw [ofJson_of_container first, ofJson_of_container second, canonical rfl]
    simp only [left, right, bind, Except.bind, content]

/-- Objects in which everything that matters is alike are read as the same node. -/
theorem nodeOf_congr : nodeOf childrenOf members = nodeOf childrenOf others := by
  rw [nodeOf, nodeOf, labelOf_congr alike, ← kindIsDirectory_congr (alike "kind" (.inl (by decide)))]
  refine bind_congr fun label => ?_
  cases kind : kindIsDirectory members with
  | error err => rfl
  | ok directory =>
    cases directory with
    | false => exact fileOf_congr alike kind label
    | true =>
      rcases alike "children" (.inr (.inl ⟨kind, rfl⟩)) with same | ⟨v, w, left, right, -, -, -, below⟩
      · simp only [same, bind, Except.bind, if_true]
      · simp only [left, right, bind, Except.bind, if_true, below rfl]

end

end PortfolioShell
