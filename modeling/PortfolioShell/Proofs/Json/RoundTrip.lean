import PortfolioShell.Proofs.Json.Loops

/-! # A printed value is read back

A value without floating-point numbers that nests no deeper than the reader goes is read back from its compact
form: the same value, with its members in the same order. The members of an object are read back one after the
other by any reader of members that adds them at the end. -/

namespace PortfolioShell.Json

/-- No floating-point number occurs in the value. -/
inductive Value.FloatFree : Value → Prop where
  | null : FloatFree .null
  | bool (b : Bool) : FloatFree (.bool b)
  | whole (n : Whole) : FloatFree (.number (.whole n))
  | string (s : String) : FloatFree (.string s)
  | array {items : List Value} (below : ∀ v ∈ items, v.FloatFree) : FloatFree (.array items)
  | object {members : List (String × Value)} (below : ∀ m ∈ members, m.2.FloatFree) : FloatFree (.object members)

/-! ### Nesting -/

mutual

/-- How many arrays and objects stand one in the other. -/
def Value.nesting : Value → Nat
  | .array items => nestingOfItems items + 1
  | .object members => nestingOfMembers members + 1
  | _ => 0

def nestingOfItems : List Value → Nat
  | [] => 0
  | v :: rest => max v.nesting (nestingOfItems rest)

def nestingOfMembers : List (String × Value) → Nat
  | [] => 0
  | (_, v) :: rest => max v.nesting (nestingOfMembers rest)

end

theorem nestingOfItems_le_iff {items : List Value} {depth : Nat} :
    nestingOfItems items ≤ depth ↔ ∀ v ∈ items, v.nesting ≤ depth := by
  induction items with
  | nil => simp [nestingOfItems]
  | cons v rest ih => rw [nestingOfItems, Nat.max_le, ih, List.forall_mem_cons]

theorem nestingOfMembers_le_iff {members : List (String × Value)} {depth : Nat} :
    nestingOfMembers members ≤ depth ↔ ∀ m ∈ members, m.2.nesting ≤ depth := by
  induction members with
  | nil => simp [nestingOfMembers]
  | cons m rest ih => rw [nestingOfMembers, Nat.max_le, ih, List.forall_mem_cons]

theorem Value.nesting_array_le_iff {items : List Value} {depth : Nat} :
    (Value.array items).nesting ≤ depth + 1 ↔ ∀ v ∈ items, v.nesting ≤ depth := by
  rw [nesting, Nat.add_le_add_iff_right, nestingOfItems_le_iff]

theorem Value.nesting_object_le_iff {members : List (String × Value)} {depth : Nat} :
    (Value.object members).nesting ≤ depth + 1 ↔ ∀ m ∈ members, m.2.nesting ≤ depth := by
  rw [nesting, Nat.add_le_add_iff_right, nestingOfMembers_le_iff]

/-! ### Scalars -/

section

variable (array object : Reader Value)

theorem readValueWith_digit {c : Char} (digit : isDigit c = true) (rest : List Char) :
    readValueWith array object (c :: rest) =
      (readNumber false (c :: rest)).map fun (n, s) => (.number n, s) := by
  have mark : isJsonBlank c = false := by
    have other (d : Char) (plain : isDigit d = false) : c ≠ d := ne_of_isDigit digit plain
    simp [isJsonBlank, other ' ' rfl, other '\n' rfl, other '\t' rfl, other '\r' rfl]
  exact readValueWith_of_digit array object (skipBlanks_cons mark rest) digit

theorem readValueWith_bracket (s : List Char) : readValueWith array object ('[' :: s) = array s := by
  simp [readValueWith, skipBlanks_cons, isJsonBlank, isDigit]

theorem readValueWith_brace (s : List Char) : readValueWith array object ('\x7b' :: s) = object s := by
  simp [readValueWith, skipBlanks_cons, isJsonBlank, isDigit]

theorem yields_null : Yields (readValueWith array object) (printCompact .null) .null := fun rest _ => by
  simp [readValueWith, printCompact, skipBlanks_cons, isJsonBlank, readWord, Except.map]

theorem yields_bool (b : Bool) : Yields (readValueWith array object) (printCompact (.bool b)) (.bool b) :=
  fun rest _ => by
    cases b <;> simp [readValueWith, printCompact, skipBlanks_cons, isJsonBlank, readWord, Except.map]

theorem yields_string (s : String) :
    Yields (readValueWith array object) (printCompact (.string s)) (.string s) := fun rest _ => by
  rw [printCompact, printString_eq, List.cons_append, readValueWith, skipBlanks_cons (by decide)]
  simp [reads_readString s rest, Except.map]

theorem yields_whole (n : Whole) :
    Yields (readValueWith array object) (printCompact (.number (.whole n))) (.number (.whole n)) := by
  intro rest ends
  have fits : n.val.natAbs < 2 ^ 64 := by
    have := n.lower
    have := n.upper
    omega
  have number := yields_readNumber (decide (n.val < 0)) fits rest ends
  rw [wholeNumber_natAbs] at number
  rw [printCompact, printNumber]
  by_cases negative : n.val < 0
  · simp only [negative, decide_true] at number
    simp [readValueWith, negative, skipBlanks_cons, isJsonBlank, number, Except.map]
  · simp only [negative, decide_false] at number
    obtain ⟨d, more, digits⟩ := List.exists_cons_of_ne_nil (Nat.toDigits_ne_nil : Nat.toDigits 10 n.val.natAbs ≠ [])
    have digit : isDigit d = true :=
      Nat.isDigit_of_mem_toDigits (by decide) (by decide) (digits ▸ List.mem_cons_self)
    rw [digits] at number
    rw [if_neg negative, List.nil_append, digits, List.cons_append, readValueWith_digit array object digit,
      ← List.cons_append, number]
    rfl

end

/-! ### Arrays and objects -/

theorem itemsText_printItems {item : Reader Value} {items : List Value} (some : items ≠ [])
    (each : ∀ v ∈ items, Yields item (printCompact v) v) : ItemsText item (printItems items) items := by
  induction items with
  | nil => exact absurd rfl some
  | cons v rest ih =>
    obtain ⟨first, each⟩ := List.forall_mem_cons.mp each
    cases rest with
    | nil => exact .last first allBlank_nil
    | cons w rest => exact .more first allBlank_nil (ih (List.cons_ne_nil w rest) each)

theorem yields_printItems {item : Reader Value} {items : List Value} (declines : Declines item)
    (each : ∀ v ∈ items, Yields item (printCompact v) v) :
    Yields (readArray item) (printItems items) items := by
  cases items with
  | nil => exact fun rest _ => rfl
  | cons v rest =>
    exact ((itemsText_printItems (List.cons_ne_nil v rest) each).readArray declines).yields

/-- A reader of members that adds to those before it each one that is printed. -/
def Appends (member : List (String × Value) → String → Reader (List (String × Value)))
    (before members : List (String × Value)) : Prop :=
  ∀ first m last, members = first ++ m :: last →
    Yields (member (before ++ first) m.1) (':' :: printCompact m.2) (before ++ first ++ [m])

section

variable {member : List (String × Value) → String → Reader (List (String × Value))}
  {before members : List (String × Value)}

theorem Appends.tail {m : String × Value} (h : Appends member before (m :: members)) :
    Appends member (before ++ [m]) members := fun first n last split => by
  have next := h (m :: first) n last (by rw [split, List.cons_append])
  rwa [List.append_cons before m first] at next

theorem membersText_printMembers (some : members ≠ []) (appends : Appends member before members) :
    ∃ text, printMembers members = '"' :: text ∧
      MembersText readString member before text (before ++ members) := by
  induction members generalizing before with
  | nil => exact absurd rfl some
  | cons m rest ih =>
    obtain ⟨k, v⟩ := m
    have first : Yields (member before k) (':' :: printCompact v) (before ++ [(k, v)]) := by
      simpa using appends [] (k, v) rest rfl
    cases rest with
    | nil =>
      refine ⟨printedTail k ++ (':' :: printCompact v ++ ['\x7d']), by simp [printMembers, printString_eq], ?_⟩
      exact .last (reads_readString k) first allBlank_nil
    | cons n rest =>
      obtain ⟨text, printed, following⟩ := ih (List.cons_ne_nil n rest) appends.tail
      refine ⟨printedTail k ++ (':' :: printCompact v ++ ',' :: '"' :: text), ?_, ?_⟩
      · simp [printMembers, printString_eq, printed]
      · rw [List.append_cons before (k, v) (n :: rest)]
        exact .more (reads_readString k) first allBlank_nil allBlank_nil following

theorem yields_printMembers (appends : Appends member [] members) :
    Yields (readObject readString member []) (printMembers members) members := by
  cases members with
  | nil => exact fun rest _ => rfl
  | cons m rest =>
    obtain ⟨text, printed, following⟩ := membersText_printMembers (List.cons_ne_nil m rest) appends
    rw [printed]
    exact (following.readObject allBlank_nil).yields

end

/-! ### Values -/

theorem readValue_eq (depth : Nat) : ∃ array object, readValue depth = readValueWith array object := by
  cases depth with
  | zero => exact ⟨_, _, rfl⟩
  | succ depth => exact ⟨_, _, rfl⟩

theorem yields_readValue {text : List Char} {v : Value}
    (either : ∀ array object, Yields (readValueWith array object) text v) (depth : Nat) :
    Yields (readValue depth) text v := by
  obtain ⟨array, object, reader⟩ := readValue_eq depth
  exact reader ▸ either array object

theorem declines_readValue (depth : Nat) : Declines (readValue depth) := fun s atEnd => by
  obtain ⟨array, object, reader⟩ := readValue_eq depth
  rw [reader, readValueWith]
  cases start : skipBlanks s with
  | nil => exact ⟨_, rfl⟩
  | cons c rest =>
    obtain rfl : c = ']' := atEnd c (by rw [start]; rfl)
    exact ⟨.malformed, by simp [isDigit]⟩

theorem appends_readValue {members : List (String × Value)} {depth : Nat}
    (each : ∀ m ∈ members, Yields (readValue depth) (printCompact m.2) m.2) :
    Appends (fun members k => afterColon fun s => (readValue depth s).map fun (v, s) => (members ++ [(k, v)], s))
      [] members := by
  intro first m last split
  have value := each m (by simp [split])
  exact (value.map fun v => [] ++ first ++ [(m.1, v)]).afterColon

theorem Value.FloatFree.yields {v : Value} (floatFree : v.FloatFree) {depth : Nat} (shallow : v.nesting ≤ depth) :
    Yields (readValue depth) (printCompact v) v := by
  induction floatFree generalizing depth with
  | null => exact yields_readValue (fun array object => yields_null array object) depth
  | bool b => exact yields_readValue (fun array object => yields_bool array object b) depth
  | whole n => exact yields_readValue (fun array object => yields_whole array object n) depth
  | string s => exact yields_readValue (fun array object => yields_string array object s) depth
  | @array items below ih =>
    obtain ⟨depth, rfl⟩ : ∃ d, depth = d + 1 := ⟨depth - 1, by simp [nesting] at shallow; omega⟩
    have each : ∀ v ∈ items, Yields (readValue depth) (printCompact v) v := fun v hv =>
      ih v hv (nesting_array_le_iff.mp shallow v hv)
    intro rest ends
    rw [printCompact, List.cons_append, readValue, readValueWith_bracket]
    simp only [yields_printItems (declines_readValue depth) each rest ends]
    rfl
  | @object members below ih =>
    obtain ⟨depth, rfl⟩ : ∃ d, depth = d + 1 := ⟨depth - 1, by simp [nesting] at shallow; omega⟩
    have each : ∀ m ∈ members, Yields (readValue depth) (printCompact m.2) m.2 := fun m hm =>
      ih m hm (nesting_object_le_iff.mp shallow m hm)
    intro rest ends
    rw [printCompact, List.cons_append, readValue, readValueWith_brace]
    simp only [yields_printMembers (appends_readValue each) rest ends]
    rfl

theorem yields_readText (s : String) : Yields readText (printCompact (.string s)) s := fun rest _ => by
  rw [printCompact, printString_eq, List.cons_append, readText, skipBlanks_cons (by decide)]
  exact reads_readString s rest

theorem yields_readOptional (s : String) :
    Yields (readOptional readText) (printCompact (.string s)) (some s) := fun rest ends => by
  have text := yields_readText s rest ends
  rw [printCompact, printString_eq, List.cons_append] at text ⊢
  rw [readOptional, skipBlanks_cons (by decide)]
  simp only [text]
  rfl

theorem Value.read_compact {v : Value} (floatFree : v.FloatFree) (shallow : v.nesting ≤ depthLimit) :
    Value.read v.compact = .ok v := by
  have read := floatFree.yields shallow [] ends_nil
  rw [List.append_nil] at read
  exact readDocument_eq_ok_iff.mpr ⟨[], by rw [compact, String.toList_ofList, read], rfl⟩

end PortfolioShell.Json
