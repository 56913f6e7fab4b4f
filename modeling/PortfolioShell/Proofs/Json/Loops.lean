import PortfolioShell.Json.Reader
import PortfolioShell.Proofs.Json.Scanning

/-! # What the loops over items and members read

A text of items is described by what the reader of one item makes of its parts, and so is a text of members;
blanks may stand before commas and brackets. Whatever has been written in such a form, by which printer and
with which layout, is read by the loops as it was meant. -/

namespace PortfolioShell.Json

variable {α β σ : Type}

/-! ### Results and faults -/

theorem bind_eq_ok_iff {ε : Type} {x : Except ε α} {f : α → Except ε β} {b : β} :
    (x >>= f) = .ok b ↔ ∃ a, x = .ok a ∧ f a = .ok b := by
  cases x with
  | error e => simp [bind, Except.bind]
  | ok a => simp [bind, Except.bind]

theorem map_eq_ok_iff {ε : Type} {x : Except ε α} {f : α → β} {b : β} :
    x.map f = .ok b ↔ ∃ a, x = .ok a ∧ f a = b := by
  cases x <;> simp [Except.map]

/-- A reader that only changes what another has read. -/
theorem mapFirst_eq_ok_iff {x : Except Fault (α × List Char)} {f : α → β} {b : β} {rest : List Char} :
    (x.map fun (a, s) => (f a, s)) = .ok (b, rest) ↔ ∃ a, x = .ok (a, rest) ∧ f a = b := by
  rw [map_eq_ok_iff]
  constructor
  · rintro ⟨⟨a, s⟩, read, same⟩
    obtain ⟨made, rfl⟩ := Prod.mk.inj same
    exact ⟨a, read, made⟩
  · rintro ⟨a, read, rfl⟩
    exact ⟨(a, rest), read, rfl⟩

theorem mapError_eq_ok_iff {ε δ : Type} {x : Except ε α} {f : ε → δ} {a : α} :
    x.mapError f = .ok a ↔ x = .ok a := by
  cases x <;> simp [Except.mapError]

theorem readDocument_eq_ok_iff {reader : Reader α} {text : String} {x : α} :
    readDocument reader text = .ok x ↔ ∃ rest, reader text.toList = .ok (x, rest) ∧ skipBlanks rest = [] := by
  rw [readDocument, bind_eq_ok_iff]
  constructor
  · rintro ⟨⟨y, rest⟩, read, done⟩
    by_cases clear : skipBlanks rest = []
    · simp only [if_pos clear, Except.ok.injEq] at done
      exact ⟨rest, done ▸ read, clear⟩
    · simp [clear] at done
  · rintro ⟨rest, read, clear⟩
    exact ⟨(x, rest), read, if_pos clear⟩

/-! ### Blanks -/

def AllBlank (gap : List Char) : Prop := ∀ c ∈ gap, isJsonBlank c = true

theorem allBlank_nil : AllBlank [] := by simp [AllBlank]

theorem skipBlanks_append {gap : List Char} (blank : AllBlank gap) (rest : List Char) :
    skipBlanks (gap ++ rest) = skipBlanks rest :=
  List.dropWhile_append_of_pos blank

theorem skipBlanks_cons {c : Char} (mark : isJsonBlank c = false) (s : List Char) :
    skipBlanks (c :: s) = c :: s := by
  simp [skipBlanks, mark]

theorem ne_of_isDigit {c d : Char} (digit : isDigit c = true) (other : isDigit d = false) : c ≠ d := fun same => by
  rw [same, other] at digit
  cases digit

/-- A value that begins with a digit is a number. -/
theorem readValueWith_of_digit (array object : Reader Value) {c : Char} {s after : List Char}
    (start : skipBlanks s = c :: after) (digit : isDigit c = true) :
    readValueWith array object s = (readNumber false (c :: after)).map fun (n, s) => (.number n, s) := by
  have other (d : Char) (plain : isDigit d = false) : c ≠ d := ne_of_isDigit digit plain
  rw [readValueWith, start]
  simp [digit, other 'n' rfl, other 't' rfl, other 'f' rfl, other '"' rfl, other '-' rfl]

theorem ends_gap {gap rest : List Char} (blank : AllBlank gap) (ends : Ends rest) : Ends (gap ++ rest) := by
  cases gap with
  | nil => exact ends
  | cons c gap =>
    have first : isJsonBlank c = true := blank c List.mem_cons_self
    refine ends_cons (gap ++ rest) ?_
    simp only [isJsonBlank, Bool.or_eq_true, decide_eq_true_eq] at first
    rcases first with ((rfl | rfl) | rfl) | rfl <;> decide

/-! ### Readers of parts -/

theorem Yields.map {reader : Reader α} {text : List Char} {x : α} (h : Yields reader text x) (f : α → β) :
    Yields (fun s => (reader s).map fun (x, s) => (f x, s)) text (f x) := fun rest ends => by
  simp only [h rest ends]
  rfl

theorem Yields.afterColon {reader : Reader α} {text : List Char} {x : α} (h : Yields reader text x) :
    Yields (afterColon reader) (':' :: text) x := fun rest ends => by
  rw [Json.afterColon, List.cons_append, skipBlanks_cons (by decide)]
  exact h rest ends

/-- A reader that takes nothing where an array ends. -/
def Declines (item : Reader α) : Prop :=
  ∀ s, (∀ c ∈ (skipBlanks s).head?, c = ']') → ∃ fault, item s = .error fault

/-! ### Items -/

/-- A text that holds the items `xs`, up to and with the bracket after the last one. -/
inductive ItemsText (item : Reader α) : List Char → List α → Prop where
  | last {text gap : List Char} {x : α} (reads : Yields item text x) (blank : AllBlank gap) :
      ItemsText item (text ++ (gap ++ [']'])) [x]
  | more {text gap others : List Char} {x : α} {xs : List α} (reads : Yields item text x)
      (blank : AllBlank gap) (following : ItemsText item others xs) :
      ItemsText item (text ++ (gap ++ ',' :: others)) (x :: xs)

section

variable {item : Reader α} {text : List Char} {xs : List α}

theorem ItemsText.readItems (h : ItemsText item text xs) {fuel : Nat} (enough : text.length ≤ fuel)
    (rest : List Char) : readItems item fuel (text ++ rest) = .ok (xs, rest) := by
  induction h generalizing fuel with
  | @last text gap x reads blank =>
    obtain ⟨fuel, rfl⟩ : ∃ k, fuel = k + 1 := ⟨fuel - 1, by simp at enough; omega⟩
    have read := reads (gap ++ ']' :: rest) (ends_gap blank (ends_cons rest (by decide)))
    simp [Json.readItems, read, bind, Except.bind, skipBlanks_append blank, skipBlanks_cons, isJsonBlank]
  | @more text gap others x xs reads blank following ih =>
    obtain ⟨fuel, rfl⟩ : ∃ k, fuel = k + 1 := ⟨fuel - 1, by simp at enough; omega⟩
    have read := reads (gap ++ ',' :: (others ++ rest)) (ends_gap blank (ends_cons _ (by decide)))
    have shorter : others.length ≤ fuel := by simp at enough; omega
    simp [Json.readItems, read, bind, Except.bind, skipBlanks_append blank, skipBlanks_cons, isJsonBlank,
      ih shorter]

/-- The first item does not look like the end of the array, or it would not have been read. -/
theorem ItemsText.starts (h : ItemsText item text xs) (declines : Declines item) (rest : List Char) :
    ∃ c s, skipBlanks (text ++ rest) = c :: s ∧ c ≠ ']' := by
  have taken : ∃ x after, item (text ++ rest) = .ok (x, after) := by
    cases h with
    | @last text gap x reads blank =>
      have read := reads (gap ++ ']' :: rest) (ends_gap blank (ends_cons rest (by decide)))
      exact ⟨_, _, by simpa using read⟩
    | @more text gap others x xs reads blank following =>
      have read := reads (gap ++ ',' :: (others ++ rest)) (ends_gap blank (ends_cons _ (by decide)))
      exact ⟨_, _, by simpa using read⟩
  have notAtEnd : ¬ ∀ c ∈ (skipBlanks (text ++ rest)).head?, c = ']' := fun atEnd => by
    obtain ⟨x, after, taken⟩ := taken
    obtain ⟨fault, failed⟩ := declines _ atEnd
    rw [failed] at taken
    cases taken
  cases start : skipBlanks (text ++ rest) with
  | nil => simp [start] at notAtEnd
  | cons c s => exact ⟨c, s, rfl, by simpa [start] using notAtEnd⟩

theorem ItemsText.readArray (h : ItemsText item text xs) (declines : Declines item) :
    Reads (readArray item) text xs := fun rest => by
  obtain ⟨c, s, starts, other⟩ := h.starts declines rest
  rw [Json.readArray, starts]
  split
  · next none => cases none
  · next closed => exact absurd (List.cons.inj closed).1 other
  · exact h.readItems (by simp) rest

end

/-! ### Members -/

/-- A text that holds members which lead from one state to another, from behind the quote that opens the first
key up to and with the brace after the last value. -/
inductive MembersText (key : Reader String) (member : σ → String → Reader σ) : σ → List Char → σ → Prop where
  | last {before after : σ} {k : String} {name text gap : List Char} (named : Reads key name k)
      (reads : Yields (member before k) text after) (blank : AllBlank gap) :
      MembersText key member before (name ++ (text ++ (gap ++ ['\x7d']))) after
  | more {before between after : σ} {k : String} {name text gap inner others : List Char}
      (named : Reads key name k) (reads : Yields (member before k) text between) (blank : AllBlank gap)
      (clear : AllBlank inner) (following : MembersText key member between others after) :
      MembersText key member before (name ++ (text ++ (gap ++ ',' :: (inner ++ '"' :: others)))) after

section

variable {key : Reader String} {member : σ → String → Reader σ} {before after : σ} {text : List Char}

theorem MembersText.readMembers (h : MembersText key member before text after) {fuel : Nat}
    (enough : text.length ≤ fuel) (rest : List Char) :
    readMembers key member fuel before (text ++ rest) = .ok (after, rest) := by
  induction h generalizing fuel with
  | @last before after k name text gap named reads blank =>
    obtain ⟨fuel, rfl⟩ : ∃ n, fuel = n + 1 := ⟨fuel - 1, by simp at enough; omega⟩
    have read := reads (gap ++ '\x7d' :: rest) (ends_gap blank (ends_cons rest (by decide)))
    simp [Json.readMembers, named _, read, bind, Except.bind, skipBlanks_append blank, skipBlanks_cons,
      isJsonBlank]
  | @more before between after k name text gap inner others named reads blank clear following ih =>
    obtain ⟨fuel, rfl⟩ : ∃ n, fuel = n + 1 := ⟨fuel - 1, by simp at enough; omega⟩
    have read := reads (gap ++ ',' :: (inner ++ '"' :: (others ++ rest)))
      (ends_gap blank (ends_cons _ (by decide)))
    have shorter : others.length ≤ fuel := by simp at enough; omega
    simp [Json.readMembers, named _, read, bind, Except.bind, skipBlanks_append blank,
      skipBlanks_append clear, skipBlanks_cons, isJsonBlank, ih shorter]

theorem MembersText.readObject (h : MembersText key member before text after) {gap : List Char}
    (blank : AllBlank gap) : Reads (readObject key member before) (gap ++ '"' :: text) after := fun rest => by
  rw [Json.readObject, List.append_assoc, skipBlanks_append blank, List.cons_append,
    skipBlanks_cons (by decide)]
  exact h.readMembers (by simp; omega) rest

end

end PortfolioShell.Json
