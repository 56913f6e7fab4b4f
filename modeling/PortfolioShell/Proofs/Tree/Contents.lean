import PortfolioShell.Proofs.Json.Canonical
import PortfolioShell.Proofs.Json.Loops
import PortfolioShell.Tree.Codec
import Mathlib.Data.List.Forall2

/-! # What the files of a tree hold

A content is faithful when reading what is written of it gives it back: a text always is, and a rich value when
it is in canonical form and no bare text. Whatever a tree has been loaded from, its contents are faithful
(`every_faithful_of_read`), and those of a tree that has been built are if none of them is a bare text. -/

namespace PortfolioShell

open Json (bind_eq_ok_iff mapError_eq_ok_iff)

namespace Content

def Faithful (c : Content) : Prop := Content.ofJson c.toJson = c

def Ordered : Content → Prop
  | .text _ => True
  | .rich v => v.Ordered

def IsBareText (c : Content) : Prop := ∃ s, c = .rich (.string s)

theorem faithful_of_ordered {c : Content} (ordered : c.Ordered) (other : ¬ c.IsBareText) : c.Faithful := by
  cases c with
  | text s => rfl
  | rich v =>
    have same : v.canonical = v := Json.Value.Ordered.canonical_eq ordered
    cases v with
    | string s => exact absurd ⟨s, rfl⟩ other
    | _ => exact congrArg Content.rich same

theorem ordered_ofJson (v : Json.Value) : (Content.ofJson v).Ordered := by
  cases v with
  | string s => trivial
  | _ => exact Json.Value.ordered_canonical _

theorem not_isBareText_ofJson (v : Json.Value) : ¬ (Content.ofJson v).IsBareText := by
  rintro ⟨s, same⟩
  cases v <;> simp [Content.ofJson, Json.Value.canonical] at same

theorem faithful_ofJson (v : Json.Value) : (Content.ofJson v).Faithful :=
  faithful_of_ordered (ordered_ofJson v) (not_isBareText_ofJson v)

end Content

/-- The node, or each file below it, has a content with this property. -/
inductive Node.Every (P : Content → Prop) : Node → Prop where
  | file {label : Label} {content : Content} {link : Option String} (holds : P content) :
      Every P (.file label content link)
  | directory {label : Label} {children : List Node} (below : ∀ c ∈ children, c.Every P) :
      Every P (.directory label children)

namespace Node

variable {P Q R : Content → Prop} {n : Node}

theorem Every.imp₂ (h : n.Every P) (k : n.Every Q) (both : ∀ c, P c → Q c → R c) : n.Every R := by
  induction h with
  | file holds =>
    cases k with
    | file other => exact .file (both _ holds other)
  | directory below ih =>
    cases k with
    | directory others => exact .directory fun c hc => ih c hc (others c hc)

theorem Every.mapLabel (h : n.Every P) (f : Label → Label) : (n.mapLabel f).Every P := by
  cases h with
  | file holds => exact .file holds
  | directory below => exact .directory below

theorem Every.linkedTo (h : n.Every P) (link : String) : (n.linkedTo link).Every P := by
  cases h with
  | file holds => exact .file holds
  | directory below => exact .directory below

/-! ### Trees that have been built -/

/-- The nodes that the builders make. A rich value has its members in order of their keys, whichever way it has
come about. -/
inductive Built : Node → Prop where
  | ofChildren (name : String) {children : List Node} (below : ∀ c ∈ children, c.Built) :
      Built (.ofChildren name children)
  | ofContent (name : String) (content : Content) (ordered : content.Ordered) :
      Built (.ofContent name content)
  | describedAs {n : Node} (built : n.Built) (description : String) : Built (n.describedAs description)
  | previewedAs {n : Node} (built : n.Built) (preview : String) : Built (n.previewedAs preview)
  | linkedTo {n : Node} (built : n.Built) (link : String) : Built (n.linkedTo link)

theorem Built.every_ordered (built : n.Built) : n.Every Content.Ordered := by
  induction built with
  | ofChildren name below ih => exact .directory ih
  | ofContent name content ordered => exact .file ordered
  | describedAs built description ih => exact ih.mapLabel _
  | previewedAs built preview ih => exact ih.mapLabel _
  | linkedTo built link ih => exact ih.linkedTo link

end Node

/-! ### Trees that have been loaded -/

theorem mapM_eq_ok_iff {ε α β : Type} {f : α → Except ε β} {xs : List α} {ys : List β} :
    xs.mapM f = .ok ys ↔ List.Forall₂ (fun x y => f x = .ok y) xs ys := by
  induction xs generalizing ys with
  | nil => cases ys <;> simp [pure, Except.pure]
  | cons x xs ih =>
    rw [List.mapM_cons, bind_eq_ok_iff, List.forall₂_cons_left_iff]
    simp only [bind_eq_ok_iff, ih, pure, Except.pure, Except.ok.injEq]
    constructor
    · rintro ⟨y, first, others, rest, rfl⟩
      exact ⟨y, others, first, rest, rfl⟩
    · rintro ⟨y, others, first, rest, rfl⟩
      exact ⟨y, first, others, rest, rfl⟩

theorem forall_mem_of_mapM_eq_ok {ε α β : Type} {f : α → Except ε β} {P : β → Prop} {xs : List α} {ys : List β}
    (each : ∀ x y, f x = .ok y → P y) (done : xs.mapM f = .ok ys) : ∀ y ∈ ys, P y := by
  have pairs := mapM_eq_ok_iff.mp done
  clear done
  induction pairs with
  | nil => simp
  | cons first rest ih => exact List.forall_mem_cons.mpr ⟨each _ _ first, ih⟩

namespace Node

variable {label : Label} {members : List (String × Json.Value)} {n : Node}

theorem every_faithful_of_fileOf (made : fileOf label members = .ok n) : n.Every Content.Faithful := by
  obtain ⟨v, -, made⟩ := bind_eq_ok_iff.mp made
  cases v with
  | none =>
    obtain ⟨content, missing, -⟩ := bind_eq_ok_iff.mp made
    cases missing
  | some v =>
    obtain ⟨content, chosen, made⟩ := bind_eq_ok_iff.mp made
    obtain ⟨link, -, made⟩ := bind_eq_ok_iff.mp made
    cases chosen
    cases made
    exact .file (Content.faithful_ofJson v)

theorem every_faithful_of_nodeOf {childrenOf : Json.Value → Except Json.Fault (List Node)}
    (below : ∀ v children, childrenOf v = .ok children → ∀ c ∈ children, c.Every Content.Faithful)
    (made : nodeOf childrenOf members = .ok n) : n.Every Content.Faithful := by
  obtain ⟨label, -, made⟩ := bind_eq_ok_iff.mp made
  obtain ⟨directory, -, made⟩ := bind_eq_ok_iff.mp made
  cases directory with
  | false => exact every_faithful_of_fileOf made
  | true =>
    obtain ⟨children, -, made⟩ := bind_eq_ok_iff.mp made
    cases children with
    | none =>
      cases made
      exact .directory fun c hc => absurd hc List.not_mem_nil
    | some v =>
      obtain ⟨children, held, made⟩ := bind_eq_ok_iff.mp made
      cases made
      exact .directory (below v children held)

theorem every_faithful_of_listOfJson {fuel : Nat} {v : Json.Value} {children : List Node}
    (each : ∀ v n, Node.ofJson fuel v = .ok n → n.Every Content.Faithful)
    (made : Node.listOfJson fuel v = .ok children) : ∀ c ∈ children, c.Every Content.Faithful := by
  cases v with
  | array items =>
    rw [Node.listOfJson] at made
    exact forall_mem_of_mapM_eq_ok each made
  | _ => simp [Node.listOfJson] at made

theorem every_faithful_of_ofJson {fuel : Nat} {v : Json.Value} (made : Node.ofJson fuel v = .ok n) :
    n.Every Content.Faithful := by
  induction fuel generalizing v n with
  | zero => simp [Node.ofJson] at made
  | succ fuel ih =>
    cases v with
    | object members =>
      rw [Node.ofJson] at made
      exact every_faithful_of_nodeOf (fun v children held =>
        every_faithful_of_listOfJson (fun v n made => ih made) held) made
    | _ => simp [Node.ofJson] at made

end Node

theorem ContentTree.every_faithful_of_read {text : String} {tree : ContentTree}
    (loaded : ContentTree.read text = .ok tree) : tree.root.Every Content.Faithful := by
  obtain ⟨root, read, checked⟩ := bind_eq_ok_iff.mp loaded
  have whole : tree.root = root := ofRoot_eq_ok_iff.mp (mapError_eq_ok_iff.mp checked)
  obtain ⟨rest, read, -⟩ := Json.readDocument_eq_ok_iff.mp (mapError_eq_ok_iff.mp read)
  obtain ⟨⟨members, after⟩, -, read⟩ := bind_eq_ok_iff.mp read
  obtain ⟨n, made, same⟩ := bind_eq_ok_iff.mp read
  cases same
  rw [whole]
  exact Node.every_faithful_of_nodeOf (fun v children held =>
    Node.every_faithful_of_listOfJson (fun v n made => Node.every_faithful_of_ofJson made) held) made

end PortfolioShell
