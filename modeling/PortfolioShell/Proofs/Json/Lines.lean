import PortfolioShell.Proofs.Json.RoundTrip
import PortfolioShell.Proofs.Text.Fields

/-! # The lines of an indented value

In the indented form of a value line feeds stand only where a new line is meant to begin: in strings and keys they are
escaped, like every control below the space. So cutting the text into lines loses nothing but these line feeds
(`intercalate_lines_pretty`), and every string and every key stands whole on one line. -/

namespace PortfolioShell.Json

/-! ### What stands on one line -/

/-- No control below the space stands in the text. -/
def InLine (text : List Char) : Prop := ∀ c ∈ text, 32 ≤ c.toNat

variable {front text : List Char}

theorem inLine_iff : InLine text ↔ text.all (32 ≤ ·.toNat) = true := by simp [InLine]

instance (text : List Char) : Decidable (InLine text) := decidable_of_iff _ inLine_iff.symm

theorem InLine.append (first : InLine front) (second : InLine text) : InLine (front ++ text) :=
  List.forall_mem_append.mpr ⟨first, second⟩

theorem InLine.not_mem {c : Char} (inLine : InLine text) (control : c.toNat < 32) : c ∉ text := fun inside => by
  have above : 32 ≤ c.toNat := inLine c inside
  omega

theorem InLine.of_subset (inLine : InLine text) (part : front ⊆ text) : InLine front := fun c inside => inLine c (part inside)

theorem inLine_replicate (n : Nat) {c : Char} (above : 32 ≤ c.toNat) : InLine (List.replicate n c) := fun d inside => by
  rwa [List.eq_of_mem_replicate inside]

/-- Apart from line feeds no control below the space stands in the text. -/
def InLines (text : List Char) : Prop := ∀ c ∈ text, c = '\n' ∨ 32 ≤ c.toNat

theorem InLine.inLines (inLine : InLine text) : InLines text := fun c inside => .inr (inLine c inside)

theorem InLines.append (first : InLines front) (second : InLines text) : InLines (front ++ text) :=
  List.forall_mem_append.mpr ⟨first, second⟩

/-- The text is made of lines, the last of which is not empty. -/
structure Laid (text : List Char) : Prop where
  inLines : InLines text
  ended : ∃ front last, text = front ++ [last] ∧ last ≠ '\n'

theorem InLine.laid (inLine : InLine text) (filled : text ≠ []) : Laid text where
  inLines := inLine.inLines
  ended := by
    refine ⟨text.dropLast, text.getLast filled, (List.dropLast_append_getLast filled).symm, fun feed => ?_⟩
    exact inLine.not_mem (by decide) (feed ▸ List.getLast_mem filled)

theorem Laid.behind (laid : Laid text) (inLines : InLines front) : Laid (front ++ text) where
  inLines := inLines.append laid.inLines
  ended := by
    obtain ⟨before, last, rfl, other⟩ := laid.ended
    exact ⟨front ++ before, last, (List.append_assoc front before [last]).symm, other⟩

/-! ### Strings and numbers -/

theorem above_hexDigit {n : Nat} (small : n < 16) : 32 ≤ (hexDigit n).toNat := by
  have each : ∀ m < 16, 32 ≤ (hexDigit m).toNat := by decide
  exact each n small

theorem inLine_printChar (c : Char) : InLine (printChar c) := by
  rw [printChar]
  split_ifs with quote backslash backspace formFeed lineFeed carriageReturn tab control
  · decide
  · decide
  · decide
  · decide
  · decide
  · decide
  · decide
  · have escape : InLine ['\\', 'u', '0', '0'] := by decide
    have high : 32 ≤ (hexDigit (c.toNat / 16)).toNat := above_hexDigit (by omega)
    have low : 32 ≤ (hexDigit (c.toNat % 16)).toNat := above_hexDigit (by omega)
    exact escape.append (List.forall_mem_cons.mpr ⟨high, List.forall_mem_singleton.mpr low⟩)
  · exact List.forall_mem_singleton.mpr (by omega)

theorem inLine_printString (s : String) : InLine (printString s) := by
  have quote : InLine ['"'] := by decide
  have letters : InLine (s.toList.flatMap printChar) := by
    intro c inside
    obtain ⟨d, -, printed⟩ := List.mem_flatMap.mp inside
    exact inLine_printChar d c printed
  exact (quote.append letters).append quote

theorem inLine_digits (n : Nat) : InLine (Nat.toDigits 10 n) := by
  intro c inside
  have digit : c.isDigit = true := Nat.isDigit_of_mem_toDigits (by decide) (by decide) inside
  have zero : '0'.toNat = 48 := rfl
  rw [Char.isDigit_iff_toNat] at digit
  omega

theorem laid_digits (n : Nat) : Laid (Nat.toDigits 10 n) := (inLine_digits n).laid Nat.toDigits_ne_nil

theorem laid_plainDigits (n : Nat) (scale : Int) : Laid (Decimal.plainDigits (Nat.toDigits 10 n) scale) := by
  have digits : InLine (Nat.toDigits 10 n) := inLine_digits n
  simp only [Decimal.plainDigits]
  split_ifs with whole short
  · have ending : Laid ['.', '0'] := InLine.laid (by decide) (by decide)
    exact ending.behind (digits.append (inLine_replicate _ (by decide))).inLines
  · have point : InLine ['.'] := by decide
    have fraction := point.append (digits.of_subset (List.drop_subset ((Nat.toDigits 10 n).length - (-scale).toNat) _))
    exact (fraction.laid (List.cons_ne_nil _ _)).behind (digits.of_subset (List.take_subset _ _)).inLines
  · have start : InLine ['0', '.'] := by decide
    exact (laid_digits n).behind (start.append (inLine_replicate _ (by decide))).inLines

theorem laid_poweredDigits (n : Nat) (power : Int) : Laid (Decimal.poweredDigits (Nat.toDigits 10 n) power) := by
  have digits : InLine (Nat.toDigits 10 n) := inLine_digits n
  have ending : InLine ['e', if power < 0 then '-' else '+'] := by
    split <;> decide
  refine ((laid_digits power.natAbs).behind ending.inLines).behind (InLine.inLines ?_)
  split
  · rename_i first second rest same
    have point : InLine ['.'] := by decide
    rw [same] at digits
    obtain ⟨leading, others⟩ := List.forall_mem_cons.mp digits
    exact List.forall_mem_cons.mpr ⟨leading, point.append others⟩
  · exact digits

theorem laid_writeFloat (layout : Decimal.Layout) (x : Float) : Laid (layout.writeFloat x) := by
  have sign (negative : Prop) [Decidable negative] : InLine (if negative then ['-'] else []) := by
    split <;> decide
  simp only [Decimal.Layout.writeFloat]
  refine Laid.behind ?_ (sign _).inLines
  split
  · exact InLine.laid (by decide) (by decide)
  · simp only [Decimal.Layout.write]
    split
    · exact laid_plainDigits _ _
    · exact laid_poweredDigits _ _

theorem laid_printNumber (n : Number) : Laid (printNumber n) := by
  cases n with
  | whole n =>
    refine (laid_digits _).behind (InLine.inLines ?_)
    split <;> decide
  | real x => exact laid_writeFloat floatLayout x

/-! ### Values -/

theorem inLines_newLine (depth : Nat) : InLines (newLine depth) :=
  List.forall_mem_cons.mpr ⟨.inl rfl, (inLine_replicate (2 * depth) (by decide)).inLines⟩

theorem inLines_keyed (depth : Nat) (key : String) (value : InLines text) :
    InLines (newLine depth ++ printString key ++ ':' :: ' ' :: text) := by
  have colon : InLine [':', ' '] := by decide
  exact ((inLines_newLine depth).append (inLine_printString key).inLines).append (colon.inLines.append value)

mutual

theorem laid_printIndented (depth : Nat) : (v : Value) → Laid (printIndented depth v)
  | .null => by
    have word : InLine "null".toList := by decide
    exact word.laid (by decide)
  | .bool true => by
    have word : InLine "true".toList := by decide
    exact word.laid (by decide)
  | .bool false => by
    have word : InLine "false".toList := by decide
    exact word.laid (by decide)
  | .number n => laid_printNumber n
  | .string s => (inLine_printString s).laid (List.cons_ne_nil _ _)
  | .array [] => by
    have brackets : InLine ['[', ']'] := by decide
    exact brackets.laid (by decide)
  | .array (v :: rest) => by
    have bracket : InLine ['['] := by decide
    exact (laid_indentedItems (depth + 1) (v :: rest)).behind bracket.inLines
  | .object [] => by
    have braces : InLine ['\x7b', '\x7d'] := by decide
    exact braces.laid (by decide)
  | .object (m :: rest) => by
    have brace : InLine ['\x7b'] := by decide
    exact (laid_indentedMembers (depth + 1) (m :: rest)).behind brace.inLines

theorem laid_indentedItems (depth : Nat) : (items : List Value) → Laid (indentedItems depth items)
  | [] => by
    have bracket : InLine [']'] := by decide
    exact (bracket.laid (by decide)).behind (inLines_newLine _)
  | [v] => by
    have bracket : InLine [']'] := by decide
    have item : InLines (newLine depth ++ printIndented depth v) :=
      (inLines_newLine depth).append (laid_printIndented depth v).inLines
    exact (bracket.laid (by decide)).behind (item.append (inLines_newLine _))
  | v :: w :: rest => by
    have comma : InLine [','] := by decide
    have item : InLines (newLine depth ++ printIndented depth v) :=
      (inLines_newLine depth).append (laid_printIndented depth v).inLines
    exact ((laid_indentedItems depth (w :: rest)).behind comma.inLines).behind item

theorem laid_indentedMembers (depth : Nat) : (members : List (String × Value)) → Laid (indentedMembers depth members)
  | [] => by
    have brace : InLine ['\x7d'] := by decide
    exact (brace.laid (by decide)).behind (inLines_newLine _)
  | [(k, v)] => by
    have brace : InLine ['\x7d'] := by decide
    have member := inLines_keyed depth k (laid_printIndented depth v).inLines
    exact (brace.laid (by decide)).behind (member.append (inLines_newLine _))
  | (k, v) :: n :: rest => by
    have comma : InLine [','] := by decide
    have member := inLines_keyed depth k (laid_printIndented depth v).inLines
    exact ((laid_indentedMembers depth (n :: rest)).behind comma.inLines).behind member

end

/-! ### Cutting into lines -/

theorem Laid.lineList_eq (laid : Laid text) : Text.lineList text = text.splitOn '\n' := by
  obtain ⟨front, last, rfl, other⟩ := laid.ended
  refine Text.lineList_eq_splitOn other fun inside => ?_
  rcases laid.inLines '\r' inside with feed | above
  · exact absurd feed (by decide)
  · exact absurd above (by decide)

theorem toList_pretty (v : Value) : v.pretty.toList = printIndented 0 v := String.toList_ofList

theorem Value.intercalate_lines_pretty (v : Value) : "\n".intercalate (Text.lines v.pretty) = v.pretty := by
  have feed : "\n".toList = ['\n'] := rfl
  rw [← String.toList_inj, String.toList_intercalate, Text.lines, toList_pretty, (laid_printIndented 0 v).lineList_eq, feed]
  simp [List.intercalate_splitOn]

theorem Value.inLine_of_mem_lines {v : Value} {line : String} (listed : line ∈ Text.lines v.pretty) : InLine line.toList := by
  obtain ⟨field, member, rfl⟩ := List.mem_map.mp listed
  rw [toList_pretty, (laid_printIndented 0 v).lineList_eq] at member
  rw [String.toList_ofList]
  intro c inside
  rcases (laid_printIndented 0 v).inLines c (Text.subset_of_mem_splitOn member inside) with rfl | above
  · exact absurd inside (Text.not_mem_of_mem_splitOn member)
  · exact above

/-! ### Strings and keys -/

/-- The text is a string in the value or a key. -/
inductive Value.HasText : Value → String → Prop where
  | string (s : String) : HasText (.string s) s
  | item {items : List Value} {v : Value} {s : String} (member : v ∈ items) (below : v.HasText s) : HasText (.array items) s
  | key {members : List (String × Value)} {m : String × Value} (member : m ∈ members) : HasText (.object members) m.1
  | value {members : List (String × Value)} {m : String × Value} {s : String} (member : m ∈ members)
    (below : m.2.HasText s) : HasText (.object members) s

theorem infix_indentedItems {items : List Value} {v : Value} (member : v ∈ items) (depth : Nat) :
    printIndented depth v <:+: indentedItems depth items := by
  induction items with
  | nil => cases member
  | cons w rest ih =>
    cases rest with
    | nil =>
      rw [List.mem_singleton.mp member]
      exact ⟨newLine depth, newLine (depth - 1) ++ [']'], by simp [indentedItems]⟩
    | cons x rest =>
      rw [indentedItems.eq_3 _ _ _ (List.cons_ne_nil x rest)]
      rcases List.mem_cons.mp member with rfl | later
      · exact List.infix_append _ _ _
      · exact ((ih later).trans (List.suffix_cons ',' _).isInfix).trans (List.suffix_append _ _).isInfix

theorem infix_indentedMembers {members : List (String × Value)} {m : String × Value} (member : m ∈ members) (depth : Nat) :
    printString m.1 ++ ':' :: ' ' :: printIndented depth m.2 <:+: indentedMembers depth members := by
  induction members with
  | nil => cases member
  | cons n rest ih =>
    obtain ⟨k, v⟩ := n
    cases rest with
    | nil =>
      rw [List.mem_singleton.mp member]
      exact ⟨newLine depth, newLine (depth - 1) ++ ['\x7d'], by simp [indentedMembers]⟩
    | cons x rest =>
      rw [indentedMembers.eq_3 _ _ _ _ (List.cons_ne_nil x rest)]
      rcases List.mem_cons.mp member with rfl | later
      · exact ⟨newLine depth, ',' :: indentedMembers depth (x :: rest), by simp⟩
      · exact ((ih later).trans (List.suffix_cons ',' _).isInfix).trans (List.suffix_append _ _).isInfix

theorem Value.HasText.infix_printIndented {v : Value} {s : String} (held : v.HasText s) (depth : Nat) :
    printString s <:+: printIndented depth v := by
  induction held generalizing depth with
  | string s => exact List.infix_rfl
  | @item items v s member below ih =>
    rw [printIndented.eq_2 _ _ (List.ne_nil_of_mem member)]
    exact ((ih (depth + 1)).trans (infix_indentedItems member (depth + 1))).trans (List.suffix_cons '[' _).isInfix
  | @key members m member =>
    rw [printIndented.eq_4 _ _ (List.ne_nil_of_mem member)]
    have inMember := (List.prefix_append (printString m.1) (':' :: ' ' :: printIndented (depth + 1) m.2)).isInfix
    exact (inMember.trans (infix_indentedMembers member (depth + 1))).trans (List.suffix_cons '\x7b' _).isInfix
  | @value members m s member below ih =>
    rw [printIndented.eq_4 _ _ (List.ne_nil_of_mem member)]
    have inMember : printIndented (depth + 1) m.2 <:+: printString m.1 ++ ':' :: ' ' :: printIndented (depth + 1) m.2 :=
      ⟨printString m.1 ++ [':', ' '], [], by simp⟩
    exact (((ih (depth + 1)).trans inMember).trans (infix_indentedMembers member (depth + 1))).trans
      (List.suffix_cons '\x7b' _).isInfix

/-- Every string and every key stands whole on one line, between its quotes and with its escapes. -/
theorem Value.HasText.exists_line {v : Value} {s : String} (held : v.HasText s) :
    ∃ line ∈ Text.lines v.pretty, printString s <:+: line.toList := by
  have oneLine : '\n' ∉ printString s := (inLine_printString s).not_mem (by decide)
  obtain ⟨field, member, stands⟩ := Text.exists_field_of_infix oneLine (held.infix_printIndented 0)
  rw [← (laid_printIndented 0 v).lineList_eq, ← toList_pretty] at member
  exact ⟨String.ofList field, List.mem_map_of_mem member, by rwa [String.toList_ofList]⟩

end PortfolioShell.Json
