import PortfolioShell.Proofs.Json.Decoding
import PortfolioShell.Tree.Codec

/-! # The root is read like any node

The members of the root are judged one by one while they are read: a name, a preview or a description only once, and
only if it is a text. All other nodes are made from values that have been read before. Both ways lead to the same node,
and both refuse the same values (`readDocument_readRoot`). -/

namespace PortfolioShell

open Json (Value Fault Gives GivesMember bind_eq_ok_iff)

/-! ### Faults -/

/-- Every fault is that the value does not fit. -/
def OnlyUnfit {α : Type} (x : Except Fault α) : Prop := ∀ fault, x = .error fault → fault = .unfit

theorem onlyUnfit_ok {α : Type} (a : α) : OnlyUnfit (.ok a) := fun _ failed => by cases failed

theorem onlyUnfit_unfit {α : Type} : OnlyUnfit (.error .unfit : Except Fault α) := fun _ failed => by
  cases failed
  rfl

theorem OnlyUnfit.bind {α β : Type} {x : Except Fault α} {f : α → Except Fault β} (first : OnlyUnfit x)
    (next : ∀ a, OnlyUnfit (f a)) : OnlyUnfit (x >>= f) := by
  cases x with
  | error fault => exact first fault rfl ▸ onlyUnfit_unfit
  | ok a => exact next a

section

variable {members : List (String × Value)} {key : String}

theorem onlyUnfit_once : OnlyUnfit (once members key) := by
  rw [once]
  split
  · exact onlyUnfit_ok _
  · exact onlyUnfit_ok _
  · exact onlyUnfit_unfit

theorem onlyUnfit_optionalText : OnlyUnfit (optionalText members key) :=
  onlyUnfit_once.bind fun found => by
    split
    · exact onlyUnfit_ok _
    · exact onlyUnfit_ok _
    · exact onlyUnfit_ok _
    · exact onlyUnfit_unfit

theorem onlyUnfit_labelOf : OnlyUnfit (labelOf members) := by
  have rest (name : String) : OnlyUnfit (do
      let preview ← optionalText members "preview"
      let description ← optionalText members "description"
      .ok (⟨name, description, preview⟩ : Label)) :=
    onlyUnfit_optionalText.bind fun preview => onlyUnfit_optionalText.bind fun description => onlyUnfit_ok _
  refine onlyUnfit_once.bind fun found => ?_
  dsimp only
  split
  · exact (onlyUnfit_ok _).bind rest
  · exact onlyUnfit_unfit.bind rest

end

/-! ### Members that are judged at once -/

/-- What is taken under an eager key. -/
def eagerOf (key : String) : Value → Except Fault (Option String)
  | .string s => .ok (some s)
  | .null => if key = "name" then .error .unfit else .ok none
  | _ => .error .unfit

theorem eagerOf_cases (key : String) (v : Value) :
    eagerOf key v = .error .unfit ∨ ∃ text, eagerOf key v = .ok text ∧ Value.optional text = v := by
  cases v with
  | string s => exact .inr ⟨some s, rfl, rfl⟩
  | null =>
    by_cases named : key = "name"
    · exact .inl (if_pos named)
    · exact .inr ⟨none, if_neg named, rfl⟩
  | _ => exact .inl rfl

theorem gives_eager (key : String) (v : Value) :
    Gives (if key = "name" then fun s => (Json.readText s).map fun (text, s) => (some text, s)
      else Json.readOptional Json.readText) v (eagerOf key v) := by
  have text := Json.gives_readText v
  by_cases named : key = "name"
  · have same : eagerOf key v = (Json.textOf v).map some := by
      cases v with
      | null => exact if_pos named
      | _ => rfl
    rw [if_pos named, same]
    exact text.map some
  · rw [if_neg named]
    cases v with
    | null =>
      rw [show eagerOf key .null = .ok none from if_neg named]
      exact Json.gives_readOptional_null _
    | _ => exact text.readOptional (by simp)

/-- What reading a member of the root adds to those before it. -/
def rootStep (members : List (String × Value)) (m : String × Value) : Except Fault (List (String × Value)) :=
  if isEagerKey m.1 then
    if (members.lookup m.1).isSome then .error .unfit
    else (eagerOf m.1 m.2).map fun text => members ++ [(m.1, .optional text)]
  else .ok (members ++ [m])

/-- A member of the root is added as it stands, unless it is judged at once and refused. -/
theorem rootStep_cases (members : List (String × Value)) (m : String × Value) :
    rootStep members m = .ok (members ++ [m]) ∨
      rootStep members m = .error .unfit ∧ isEagerKey m.1 = true ∧
        ((members.lookup m.1).isSome = true ∨ eagerOf m.1 m.2 = .error .unfit) := by
  rw [rootStep]
  split_ifs with eager seen
  · exact .inr ⟨rfl, eager, .inl seen⟩
  · rcases eagerOf_cases m.1 m.2 with refused | ⟨text, taken, same⟩
    · exact .inr ⟨by rw [refused]; rfl, eager, .inr refused⟩
    · exact .inl (by rw [taken, Except.map, same])
  · exact .inl rfl

/-- All members of the root are added, or the first one that is refused ends the reading. -/
theorem foldlM_rootStep (before members : List (String × Value)) :
    members.foldlM rootStep before = .ok (before ++ members) ∨
      members.foldlM rootStep before = .error .unfit ∧ ∃ first m last, members = first ++ m :: last ∧
        isEagerKey m.1 = true ∧ (((before ++ first).lookup m.1).isSome = true ∨ eagerOf m.1 m.2 = .error .unfit) := by
  induction members generalizing before with
  | nil => exact .inl (by rw [List.append_nil]; rfl)
  | cons m rest ih =>
    rcases rootStep_cases before m with step | ⟨step, eager, why⟩
    · rw [List.foldlM_cons, step, List.append_cons before m rest]
      change List.foldlM rootStep (before ++ [m]) rest = _ ∨ List.foldlM rootStep (before ++ [m]) rest = _ ∧ _
      rcases ih (before ++ [m]) with done | ⟨refused, first, n, last, split, eager, why⟩
      · exact .inl done
      · refine .inr ⟨refused, m :: first, n, last, by rw [split, List.cons_append], eager, ?_⟩
        rwa [List.append_cons]
    · refine .inr ⟨by rw [List.foldlM_cons, step]; rfl, [], m, rest, rfl, eager, ?_⟩
      rwa [List.append_nil]

/-! ### The same judgement as of any node -/

section

variable {members first last : List (String × Value)} {m : String × Value}

theorem once_eq_of_split (split : members = first ++ m :: last) :
    once members m.1 = .error .unfit ∨ once members m.1 = .ok (some m.2) ∧ first.lookup m.1 = none := by
  subst split
  simp only [once, List.filter_append, List.filter_cons, decide_true, if_true]
  cases before : first.filter (·.1 = m.1) with
  | cons x rest => cases rest <;> exact .inl rfl
  | nil =>
    cases last.filter (·.1 = m.1) with
    | cons y rest => exact .inl rfl
    | nil =>
      refine .inr ⟨rfl, List.lookup_eq_none_iff.mpr fun n hn => ?_⟩
      have other := List.filter_eq_nil_iff.mp before n hn
      exact bne_iff_ne.mpr fun same => other (decide_eq_true same.symm)

theorem eagerOf_of_optionalText {key : String} {text : Option String} (made : optionalText members key = .ok text)
    (other : key ≠ "name") : ∃ found, once members key = .ok found ∧ ∀ v ∈ found, eagerOf key v ≠ .error .unfit := by
  obtain ⟨found, held, made⟩ := bind_eq_ok_iff.mp made
  refine ⟨found, held, fun v hv => ?_⟩
  obtain rfl := Option.mem_def.mp hv
  cases v with
  | null => simp [eagerOf, other]
  | string s => simp [eagerOf]
  | _ => cases made

/-- Where there is a label, nothing that is judged at once is refused. -/
theorem eagerOf_of_labelOf {label : Label} (made : labelOf members = .ok label) {key : String}
    (eager : isEagerKey key = true) :
    ∃ found, once members key = .ok found ∧ ∀ v ∈ found, eagerOf key v ≠ .error .unfit := by
  obtain ⟨found, held, made⟩ := bind_eq_ok_iff.mp made
  obtain ⟨name, named, made⟩ : ∃ name, (∀ v ∈ found, eagerOf "name" v ≠ .error .unfit) ∧
      (optionalText members "preview" >>= fun preview => optionalText members "description" >>= fun description =>
        .ok (⟨name, description, preview⟩ : Label)) = .ok label := by
    dsimp only at made
    split at made
    · next s => exact ⟨s, by simp [eagerOf], made⟩
    · cases made
  obtain ⟨preview, first, made⟩ := bind_eq_ok_iff.mp made
  obtain ⟨description, second, -⟩ := bind_eq_ok_iff.mp made
  simp only [isEagerKey, List.contains_cons, List.contains_nil, Bool.or_false, Bool.or_eq_true, beq_iff_eq] at eager
  rcases eager with rfl | rfl | rfl
  · exact ⟨found, held, named⟩
  · exact eagerOf_of_optionalText first (by decide)
  · exact eagerOf_of_optionalText second (by decide)

/-- An object with a member that is refused at once has no label. -/
theorem labelOf_eq_unfit (split : members = first ++ m :: last) (eager : isEagerKey m.1 = true)
    (why : (first.lookup m.1).isSome = true ∨ eagerOf m.1 m.2 = .error .unfit) : labelOf members = .error .unfit := by
  cases made : labelOf members with
  | error fault => rw [onlyUnfit_labelOf fault made]
  | ok label =>
    obtain ⟨found, held, fits⟩ := eagerOf_of_labelOf made eager
    rcases once_eq_of_split split with fault | ⟨here, fresh⟩
    · rw [fault] at held
      cases held
    · obtain rfl := Except.ok.inj (here.symm.trans held)
      rcases why with seen | refused
      · rw [fresh] at seen
        cases seen
      · exact absurd refused (fits m.2 rfl)

end

theorem readRootMember_eq {state : List (String × Value)} {m : String × Value} {s rest : List Char}
    (read : Json.afterColon (Json.readValue (Json.depthLimit - 1)) s = .ok (m.2, rest)) :
    readRootMember state m.1 s = (rootStep state m).map fun members => (members, rest) := by
  rw [readRootMember, rootStep]
  by_cases eager : isEagerKey m.1 = true
  · rw [if_pos eager, if_pos eager]
    by_cases seen : (state.lookup m.1).isSome = true
    · rw [if_pos seen, if_pos seen]
      rfl
    · rw [if_neg seen, if_neg seen]
      exact (gives_eager m.1 m.2).afterColon.map (fun text => state ++ [(m.1, Value.optional text)]) _ s rest read
  · rw [if_neg eager, if_neg eager, read]
    rfl

theorem nodeOf_of_foldlM_rootStep {childrenOf : Value → Except Fault (List Node)} (members : List (String × Value)) :
    (members.foldlM rootStep [] >>= nodeOf childrenOf) = nodeOf childrenOf members := by
  rcases foldlM_rootStep [] members with done | ⟨refused, first, m, last, split, eager, why⟩
  · rw [done]
    rfl
  · rw [refused, nodeOf, labelOf_eq_unfit split eager why]
    rfl

theorem readRoot_of_readValue {s rest : List Char} {v : Value} (read : Json.readValue Json.depthLimit s = .ok (v, rest)) :
    readRoot s = (Node.ofJson (Json.depthLimit + 1) v).map fun n => (n, rest) := by
  obtain ⟨c, after, start, form⟩ := Json.exists_form_of_readValue read
  by_cases object : ∃ members, v = .object members
  · obtain ⟨members, rfl⟩ := object
    cases form with
    | object held =>
      have kept : Json.readObject Json.readString readRootMember [] after = _ :=
        Json.readObject_of_readObject held (fun m _ t inner left _ named held =>
          ⟨m.1, named, fun state => readRootMember_eq held⟩) []
      have made : (members.foldlM rootStep [] >>= nodeOf (Node.listOfJson Json.depthLimit)) =
          nodeOf (Node.listOfJson Json.depthLimit) members := nodeOf_of_foldlM_rootStep members
      rw [readRoot, Json.readObjectOf, start, Node.ofJson, ← made]
      simp only [kept]
      cases members.foldlM rootStep [] with
      | error fault => rfl
      | ok state =>
        simp only [bind, Except.bind, Except.map]
  · have refused : Json.readObjectOf readRootMember [] s = _ :=
      Json.gives_readObjectOf_of_ne (fun members same => object ⟨members, same⟩) [] _ s rest read
    rw [readRoot, refused]
    cases v with
    | object members => exact absurd ⟨members, rfl⟩ object
    | _ => rw [Node.ofJson] <;> first | rfl | simp

/-- A text of a value is read as a root as the value is read as a node. -/
theorem readDocument_readRoot {text : String} {v : Value} (read : Value.read text = .ok v) :
    Json.readDocument readRoot text = Node.ofJson (Json.depthLimit + 1) v := by
  obtain ⟨rest, read, clear⟩ := Json.readDocument_eq_ok_iff.mp read
  rw [Json.readDocument, readRoot_of_readValue read]
  cases Node.ofJson (Json.depthLimit + 1) v with
  | error fault => rfl
  | ok n => simp [Except.map, bind, Except.bind, clear]

end PortfolioShell
