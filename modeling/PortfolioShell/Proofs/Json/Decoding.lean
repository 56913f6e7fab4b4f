import PortfolioShell.Json.Record
import PortfolioShell.Proofs.Json.Passing

/-! # What readers of a fixed form make of a value

A text of a value can be read as a value, or by a reader of a fixed form. What the second gives depends on the value
alone and not on how it is written: `Gives reader v result` says that wherever the text of `v` stands, the reader
gives `result` and stops behind it. -/

namespace PortfolioShell.Json

variable {α β σ : Type}

def Gives (reader : Reader α) (v : Value) (result : Except Fault α) : Prop :=
  ∀ depth s rest, readValue depth s = .ok (v, rest) → reader s = result.map fun x => (x, rest)

/-- The same of a reader that begins at the colon behind a key. -/
def GivesMember (reader : Reader α) (v : Value) (result : Except Fault α) : Prop :=
  ∀ depth s rest, afterColon (readValue depth) s = .ok (v, rest) → reader s = result.map fun x => (x, rest)

variable {reader : Reader α} {v : Value} {result : Except Fault α}

theorem Gives.readDocument (gives : Gives reader v result) {text : String} (read : Value.read text = .ok v) :
    readDocument reader text = result := by
  obtain ⟨rest, read, clear⟩ := readDocument_eq_ok_iff.mp read
  rw [Json.readDocument, gives _ _ _ read]
  cases result with
  | error fault => rfl
  | ok x => simp [Except.map, bind, Except.bind, clear]

theorem Gives.map (gives : Gives reader v result) (f : α → β) :
    Gives (fun s => (reader s).map fun (x, s) => (f x, s)) v (result.map f) := fun depth s rest read => by
  simp only [gives depth s rest read]
  cases result <;> rfl

theorem GivesMember.map (gives : GivesMember reader v result) (f : α → β) :
    GivesMember (fun s => (reader s).map fun (x, s) => (f x, s)) v (result.map f) := fun depth s rest read => by
  simp only [gives depth s rest read]
  cases result <;> rfl

theorem Gives.afterColon (gives : Gives reader v result) : GivesMember (afterColon reader) v result :=
  fun depth s rest read => by
    obtain ⟨after, start, value⟩ := exists_of_afterColon read
    rw [Json.afterColon, start]
    exact gives depth after rest value

theorem gives_refuse (v : Value) : Gives (refuse : Reader α) v (.error .unfit) := fun depth s rest read => by
  obtain ⟨c, after, start, form⟩ := exists_form_of_readValue read
  rw [refuse]
  cases form with
  | null read | yes read | no read | string read | negative read => simp [readValueWith, start, read, Except.map]
  | number digit read => simp [readValueWith_of_digit _ _ start digit, read, Except.map]
  | array read | object read => simp [readValueWith, start, isDigit, Except.map]

def textOf (v : Value) : Except Fault String := v.string?.elim (.error .unfit) .ok

theorem gives_readText (v : Value) : Gives readText v (textOf v) := fun depth s rest read => by
  obtain ⟨c, after, start, form⟩ := exists_form_of_readValue read
  rw [readText, start]
  split
  · next same =>
    obtain ⟨rfl, rfl⟩ := List.cons.inj same
    cases form with
    | string read => exact read
    | number digit read => cases digit
  · next other =>
    rw [gives_refuse v depth s rest read]
    cases form with
    | string read => exact absurd rfl (other _)
    | _ => rfl

theorem gives_readOptional_null (value : Reader α) : Gives (readOptional value) .null (.ok none) :=
  fun depth s rest read => by
    obtain ⟨c, after, start, form⟩ := exists_form_of_readValue read
    cases form with
    | null read => simp [readOptional, start, read, Except.map]

theorem Gives.readOptional (gives : Gives reader v result) (some : v ≠ .null) :
    Gives (readOptional reader) v (result.map Option.some) := fun depth s rest read => by
  obtain ⟨c, after, start, form⟩ := exists_form_of_readValue read
  rw [Json.readOptional, start]
  split
  · next same =>
    obtain ⟨rfl, rfl⟩ := List.cons.inj same
    cases form with
    | null read => exact absurd rfl some
    | number digit read => cases digit
  · exact gives.map Option.some depth s rest read

section

variable {member : σ → String → Reader σ} {step : σ → String × Value → Except Fault σ} {members : List (String × Value)}

theorem gives_readObjectOf_of_ne (other : ∀ members, v ≠ .object members) (state : σ) :
    Gives (readObjectOf member state) v (.error .unfit) := fun depth s rest read => by
  obtain ⟨c, after, start, form⟩ := exists_form_of_readValue read
  rw [readObjectOf, start]
  split
  · next same =>
    obtain ⟨rfl, rfl⟩ := List.cons.inj same
    cases form with
    | object read => exact absurd rfl (other _)
    | number digit read => cases digit
  · exact gives_refuse v depth s rest read

end

/-! ### Records -/

section

variable {fields : List (Field σ)} {put : String → σ → σ}

/-- The members that remain when those with some keys have been removed, with others whose keys are unknown, in any
order. -/
def Revised (known removed : List String) (members revised : List (String × Value)) : Prop :=
  ∃ extra : List (String × Value), (∀ m ∈ extra, m.1 ∉ known) ∧
    revised.Perm (members.filter (fun m => !removed.contains m.1) ++ extra)

theorem Revised.refl (known : List String) (members : List (String × Value)) : Revised known [] members members :=
  ⟨[], by simp, by simp⟩

end

end PortfolioShell.Json
