import PortfolioShell.Proofs.Json.Skipping

/-! # What is read can be passed over

A value that the reader of values takes from a text is taken from the same text, and to the same place, by the
reader that passes over it (`ignoreValue_of_readValue`), however it is written. The two loops over items, and
those over members, then take the same steps; what each step of the second makes of what the first has read is
left open here, so that readers of a fixed form follow as well. -/

namespace PortfolioShell.Json

variable {α β σ : Type}

/-! ### Loops -/

section

variable {key : Reader String} {item : Reader α} {member : σ → String → Reader σ}

theorem exists_of_afterColon {value : Reader α} {s rest : List Char} {x : α}
    (read : afterColon value s = .ok (x, rest)) : ∃ after, skipBlanks s = ':' :: after ∧ value after = .ok (x, rest) := by
  rw [Json.afterColon] at read
  split at read
  · cases read
  · next after start => exact ⟨after, start, read⟩
  · cases read

theorem Shrinks.afterColon {value : Reader α} (h : Shrinks value) : Shrinks (afterColon value) := by
  intro s x rest read
  obtain ⟨after, start, read⟩ := exists_of_afterColon read
  exact Nat.le_trans (h after x rest read) (Nat.le_of_lt (length_lt_of_skipBlanks start))

theorem Shrinks.map {f : α → β} (h : Shrinks item) : Shrinks fun s => (item s).map fun (x, s) => (f x, s) := by
  intro s y rest read
  obtain ⟨x, read, -⟩ := mapFirst_eq_ok_iff.mp read
  exact h s x rest read

/-- What one round of the loop over items has read, and how it goes on. -/
theorem readItems_cases {fuel : Nat} {s rest : List Char} {xs : List α}
    (read : readItems item fuel s = .ok (xs, rest)) :
    ∃ below x after, fuel = below + 1 ∧ item s = .ok (x, after) ∧
      (skipBlanks after = ']' :: rest ∧ xs = [x] ∨
        ∃ next ys, skipBlanks after = ',' :: next ∧ readItems item below next = .ok (ys, rest) ∧ xs = x :: ys) := by
  cases fuel with
  | zero => cases read
  | succ below =>
    obtain ⟨⟨x, after⟩, first, read⟩ := bind_eq_ok_iff.mp read
    refine ⟨below, x, after, rfl, first, ?_⟩
    dsimp only at read
    split at read
    · cases read
    · next start =>
      cases read
      exact .inl ⟨start, rfl⟩
    · next next start =>
      obtain ⟨⟨ys, left⟩, others, read⟩ := bind_eq_ok_iff.mp read
      cases read
      exact .inr ⟨next, ys, start, others, rfl⟩
    · cases read

theorem Shrinks.readItems (h : Shrinks item) (fuel : Nat) : Shrinks (readItems item fuel) := by
  induction fuel with
  | zero => exact fun s x rest read => by cases read
  | succ fuel ih =>
    intro s xs rest read
    obtain ⟨below, x, after, same, first, going⟩ := readItems_cases read
    cases same
    have := h s x after first
    rcases going with ⟨start, -⟩ | ⟨next, ys, start, others, -⟩
    · have := length_lt_of_skipBlanks start
      omega
    · have := length_lt_of_skipBlanks start
      have := ih next ys rest others
      omega

theorem Shrinks.readArray (h : Shrinks item) : Shrinks (readArray item) := by
  intro s xs rest read
  rw [Json.readArray] at read
  split at read
  · cases read
  · next start =>
    cases read
    exact Nat.le_of_lt (length_lt_of_skipBlanks start)
  · exact h.readItems _ s xs rest read

/-- What one round of the loop over members has read, and how it goes on. -/
theorem readMembers_cases {fuel : Nat} {s rest : List Char} {before result : σ}
    (read : readMembers key member fuel before s = .ok (result, rest)) :
    ∃ below k inner between after, fuel = below + 1 ∧ key s = .ok (k, inner) ∧
      member before k inner = .ok (between, after) ∧
      (skipBlanks after = '\x7d' :: rest ∧ result = between ∨
        ∃ next quoted, skipBlanks after = ',' :: next ∧ skipBlanks next = '"' :: quoted ∧
          readMembers key member below between quoted = .ok (result, rest)) := by
  cases fuel with
  | zero => cases read
  | succ below =>
    obtain ⟨⟨k, inner⟩, named, read⟩ := bind_eq_ok_iff.mp read
    obtain ⟨⟨between, after⟩, held, read⟩ := bind_eq_ok_iff.mp read
    refine ⟨below, k, inner, between, after, rfl, named, held, ?_⟩
    dsimp only at read
    split at read
    · cases read
    · next start =>
      cases read
      exact .inl ⟨start, rfl⟩
    · next next start =>
      split at read
      · cases read
      · next quoted quote => exact .inr ⟨next, quoted, start, quote, read⟩
      · cases read
    · cases read

theorem Shrinks.readMembers (named : Shrinks key) (each : ∀ state k, Shrinks (member state k)) (fuel : Nat) (state : σ) :
    Shrinks (readMembers key member fuel state) := by
  induction fuel generalizing state with
  | zero => exact fun s x rest read => by cases read
  | succ fuel ih =>
    intro s result rest read
    obtain ⟨below, k, inner, between, after, same, first, held, going⟩ := readMembers_cases read
    cases same
    have := named s k inner first
    have := each state k inner between after held
    rcases going with ⟨start, -⟩ | ⟨next, quoted, start, quote, others⟩
    · have := length_lt_of_skipBlanks start
      omega
    · have := length_lt_of_skipBlanks start
      have := length_lt_of_skipBlanks quote
      have := ih between quoted result rest others
      omega

theorem Shrinks.readObject (named : Shrinks key) (each : ∀ state k, Shrinks (member state k)) (state : σ) :
    Shrinks (readObject key member state) := by
  intro s result rest read
  rw [Json.readObject] at read
  split at read
  · cases read
  · next start =>
    cases read
    exact Nat.le_of_lt (length_lt_of_skipBlanks start)
  · next quoted start =>
    exact Nat.le_trans (Shrinks.readMembers named each _ state quoted result rest read)
      (Nat.le_of_lt (length_lt_of_skipBlanks start))
  · cases read

end

/-! ### Forms of a value -/

/-- Reads a member as it stands and adds it to those before it. -/
def keepMember (depth : Nat) (members : List (String × Value)) (k : String) : Reader (List (String × Value)) :=
  afterColon fun s => (readValue depth s).map fun (v, s) => (members ++ [(k, v)], s)

theorem exists_of_keepMember {depth : Nat} {members result : List (String × Value)} {k : String}
    {s rest : List Char} (read : keepMember depth members k s = .ok (result, rest)) :
    ∃ v, afterColon (readValue depth) s = .ok (v, rest) ∧ result = members ++ [(k, v)] := by
  obtain ⟨after, start, kept⟩ := exists_of_afterColon read
  obtain ⟨v, value, rfl⟩ := (mapFirst_eq_ok_iff (f := fun v => members ++ [(k, v)])).mp kept
  exact ⟨v, by rw [afterColon, start]; exact value, rfl⟩

/-- How a value that begins with a character is read from the text behind that character. -/
inductive Form : (depth : Nat) → Char → List Char → Value → List Char → Prop where
  | null {depth : Nat} {after rest : List Char} (read : readWord ['u', 'l', 'l'] after = .ok ((), rest)) :
      Form depth 'n' after .null rest
  | yes {depth : Nat} {after rest : List Char} (read : readWord ['r', 'u', 'e'] after = .ok ((), rest)) :
      Form depth 't' after (.bool true) rest
  | no {depth : Nat} {after rest : List Char} (read : readWord ['a', 'l', 's', 'e'] after = .ok ((), rest)) :
      Form depth 'f' after (.bool false) rest
  | string {depth : Nat} {after rest : List Char} {text : String} (read : readString after = .ok (text, rest)) :
      Form depth '"' after (.string text) rest
  | negative {depth : Nat} {after rest : List Char} {n : Number} (read : readNumber true after = .ok (n, rest)) :
      Form depth '-' after (.number n) rest
  | number {depth : Nat} {c : Char} {after rest : List Char} {n : Number} (digit : isDigit c = true)
      (read : readNumber false (c :: after) = .ok (n, rest)) : Form depth c after (.number n) rest
  | array {depth : Nat} {after rest : List Char} {items : List Value}
      (read : readArray (readValue depth) after = .ok (items, rest)) :
      Form (depth + 1) '[' after (.array items) rest
  | object {depth : Nat} {after rest : List Char} {members : List (String × Value)}
      (read : readObject readString (keepMember depth) [] after = .ok (members, rest)) :
      Form (depth + 1) '\x7b' after (.object members) rest

section

variable {array object : Reader Value} {depth : Nat} {s rest : List Char} {v : Value}

theorem exists_form (arrays : ∀ after v rest, array after = .ok (v, rest) → Form depth '[' after v rest)
    (objects : ∀ after v rest, object after = .ok (v, rest) → Form depth '\x7b' after v rest)
    (read : readValueWith array object s = .ok (v, rest)) :
    ∃ c after, skipBlanks s = c :: after ∧ Form depth c after v rest := by
  rw [readValueWith] at read
  cases start : skipBlanks s with
  | nil => simp [start] at read
  | cons c after =>
    refine ⟨c, after, rfl, ?_⟩
    simp only [start] at read
    split_ifs at read with isN isT isF isQuote isMinus digit isBracket isBrace
    · obtain ⟨_, word, rfl⟩ := (mapFirst_eq_ok_iff (f := fun _ : Unit => Value.null)).mp read
      exact isN ▸ .null word
    · obtain ⟨_, word, rfl⟩ := (mapFirst_eq_ok_iff (f := fun _ : Unit => Value.bool true)).mp read
      exact isT ▸ .yes word
    · obtain ⟨_, word, rfl⟩ := (mapFirst_eq_ok_iff (f := fun _ : Unit => Value.bool false)).mp read
      exact isF ▸ .no word
    · obtain ⟨_, text, rfl⟩ := mapFirst_eq_ok_iff.mp read
      exact isQuote ▸ .string text
    · obtain ⟨_, number, rfl⟩ := mapFirst_eq_ok_iff.mp read
      exact isMinus ▸ .negative number
    · obtain ⟨_, number, rfl⟩ := mapFirst_eq_ok_iff.mp read
      exact .number digit number
    · exact isBracket ▸ arrays after v rest read
    · exact isBrace ▸ objects after v rest read

theorem exists_form_of_readValue (read : readValue depth s = .ok (v, rest)) :
    ∃ c after, skipBlanks s = c :: after ∧ Form depth c after v rest := by
  cases depth with
  | zero => exact exists_form (fun _ _ _ refused => by cases refused) (fun _ _ _ refused => by cases refused) read
  | succ depth =>
    refine exists_form (fun after v rest read => ?_) (fun after v rest read => ?_) read
    · obtain ⟨items, listed, rfl⟩ := mapFirst_eq_ok_iff.mp read
      exact .array listed
    · obtain ⟨members, kept, rfl⟩ := mapFirst_eq_ok_iff.mp read
      exact .object kept

end

theorem shrinks_readValue (depth : Nat) : Shrinks (readValue depth) := by
  induction depth using Nat.strongRecOn with
  | ind depth ih =>
  intro s v rest read
  obtain ⟨c, after, start, form⟩ := exists_form_of_readValue read
  have shorter := length_lt_of_skipBlanks start
  have left : rest.length ≤ after.length + 1 := by
    cases form with
    | null read | yes read | no read => exact Nat.le_succ_of_le (shrinks_readWord _ _ _ _ read)
    | string read => exact Nat.le_succ_of_le (shrinks_readChars _ _ _ _ _ _ read)
    | negative read => exact Nat.le_succ_of_le (shrinks_readNumber _ _ _ _ read)
    | number digit read => exact shrinks_readNumber _ _ _ _ read
    | array read =>
      exact Nat.le_succ_of_le (Shrinks.readArray (ih _ (Nat.lt_succ_self _)) _ _ _ read)
    | object read =>
      have each (members : List (String × Value)) (k : String) : Shrinks (keepMember _ members k) :=
        Shrinks.afterColon (Shrinks.map (f := fun v => members ++ [(k, v)]) (ih _ (Nat.lt_succ_self _)))
      exact Nat.le_succ_of_le (Shrinks.readObject (shrinks_readChars _ _ _) each _ _ _ _ read)
  omega

/-! ### Loops that follow one another -/

section

variable {fuel bound : Nat} {s rest : List Char}

/-- The loop over members adds what it has read to the members before them. -/
theorem exists_append_of_readMembers {depth : Nat} {before result : List (String × Value)}
    (read : readMembers readString (keepMember depth) fuel before s = .ok (result, rest)) :
    ∃ members, result = before ++ members := by
  induction fuel generalizing s before with
  | zero => cases read
  | succ fuel ih =>
    obtain ⟨below, k, inner, between, after, same, named, held, going⟩ := readMembers_cases read
    cases same
    obtain ⟨v, -, rfl⟩ := exists_of_keepMember held
    rcases going with ⟨start, rfl⟩ | ⟨next, quoted, start, quote, others⟩
    · exact ⟨[(k, v)], rfl⟩
    · obtain ⟨members, rfl⟩ := ih others
      exact ⟨(k, v) :: members, by rw [List.append_assoc, List.singleton_append]⟩

/-- The loop over members makes of each what its reader makes of it, where that reader stops at the same place. -/
theorem readMembers_of_readMembers {depth : Nat} {key : Reader String} {member : σ → String → Reader σ}
    {step : σ → String × Value → Except Fault σ} {before members : List (String × Value)}
    (within : s.length ≤ bound)
    (read : readMembers readString (keepMember depth) fuel before s = .ok (before ++ members, rest))
    (follows : ∀ m ∈ members, ∀ s inner rest, inner.length ≤ bound → readString s = .ok (m.1, inner) →
      afterColon (readValue depth) inner = .ok (m.2, rest) →
      ∃ k, key s = .ok (k, inner) ∧ ∀ state, member state k inner = (step state m).map fun state => (state, rest))
    (state : σ) :
    readMembers key member fuel state s = (members.foldlM step state).map fun state => (state, rest) := by
  induction fuel generalizing s before members state with
  | zero => cases read
  | succ fuel ih =>
    obtain ⟨below, k, inner, between, after, same, named, held, going⟩ := readMembers_cases read
    cases same
    obtain ⟨v, value, rfl⟩ := exists_of_keepMember held
    have first := shrinks_readChars _ _ _ s k inner named
    have second := (shrinks_readValue depth).afterColon inner v after value
    rcases going with ⟨start, result⟩ | ⟨next, quoted, start, quote, others⟩
    · obtain rfl : members = [(k, v)] := List.append_cancel_left result
      obtain ⟨k', again, makes⟩ := follows (k, v) List.mem_cons_self s inner after (by omega) named value
      simp only [readMembers, again, makes, List.foldlM_cons, List.foldlM_nil, bind, Except.bind]
      cases step state (k, v) with
      | error fault => rfl
      | ok state =>
        simp only [Except.map, start]
        rfl
    · have shorter := length_lt_of_skipBlanks start
      have shorter' := length_lt_of_skipBlanks quote
      obtain ⟨more, result⟩ := exists_append_of_readMembers others
      rw [List.append_assoc, List.singleton_append] at result
      obtain rfl := List.append_cancel_left result
      obtain ⟨k', again, makes⟩ := follows (k, v) List.mem_cons_self s inner after (by omega) named value
      rw [List.append_cons before (k, v) more] at others
      have tail := ih (s := quoted) (by omega) others fun m hm => follows m (List.mem_cons_of_mem _ hm)
      simp only [readMembers, again, makes, List.foldlM_cons, bind, Except.bind]
      cases step state (k, v) with
      | error fault => rfl
      | ok state =>
        simp only [Except.map, start, quote, tail state]

theorem readObject_of_readObject {depth : Nat} {key : Reader String} {member : σ → String → Reader σ}
    {step : σ → String × Value → Except Fault σ} {members : List (String × Value)}
    (read : readObject readString (keepMember depth) [] s = .ok (members, rest))
    (follows : ∀ m ∈ members, ∀ t inner rest, inner.length ≤ s.length → readString t = .ok (m.1, inner) →
      afterColon (readValue depth) inner = .ok (m.2, rest) →
      ∃ k, key t = .ok (k, inner) ∧ ∀ state, member state k inner = (step state m).map fun state => (state, rest))
    (state : σ) :
    readObject key member state s = (members.foldlM step state).map fun state => (state, rest) := by
  rw [readObject] at read ⊢
  split at read
  · cases read
  · cases read
    rfl
  · next quoted start =>
    have shorter := length_lt_of_skipBlanks start
    exact @readMembers_of_readMembers _ _ _ _ _ _ _ _ _ [] _ (Nat.le_of_lt shorter) read follows state
  · cases read

end

/-! ### Values that are passed over -/

end PortfolioShell.Json
