import PortfolioShell.Json.Printer
import PortfolioShell.Json.Scanner
import Mathlib.Data.List.Basic
import Mathlib.Tactic.SplitIfs

/-! # Printed strings and numbers are scanned back

The scanner of strings undoes each printed character, and the scanner of numbers takes all digits of a
printed number and nothing after them. A number has no mark of its own at its end, so what follows it in the
text must not be able to continue one. -/

namespace PortfolioShell.Json

/-- A text that does not continue a number that stands before it. -/
def Ends (rest : List Char) : Prop :=
  ∀ c ∈ rest.head?, isDigit c = false ∧ c ≠ '.' ∧ isExponentMark c = false

def Reads {α : Type} (reader : Reader α) (text : List Char) (x : α) : Prop :=
  ∀ rest, reader (text ++ rest) = .ok (x, rest)

def Yields {α : Type} (reader : Reader α) (text : List Char) (x : α) : Prop :=
  ∀ rest, Ends rest → reader (text ++ rest) = .ok (x, rest)

theorem ends_nil : Ends [] := by simp [Ends]

theorem ends_cons {c : Char} (s : List Char)
    (other : isDigit c = false ∧ c ≠ '.' ∧ isExponentMark c = false) : Ends (c :: s) := by
  simpa [Ends] using other

theorem Reads.yields {α : Type} {reader : Reader α} {text : List Char} {x : α} (h : Reads reader text x) :
    Yields reader text x :=
  fun rest _ => h rest

/-! ### Strings -/

theorem readChars_pending (escape : List Char → Except Fault (Char × Nat)) (done taken rest : List Char) :
    readChars escape taken.length done (taken ++ rest) = readChars escape 0 done rest := by
  induction taken with
  | nil => rfl
  | cons c taken ih => exact ih

/-- An escape stands for one character, however many it is written with. -/
theorem readChars_escape {escape : List Char → Except Fault (Char × Nat)} {d : Char} {taken rest : List Char}
    (stands : escape (taken ++ rest) = .ok (d, taken.length)) (done : List Char) :
    readChars escape 0 done ('\\' :: taken ++ rest) = readChars escape 0 (d :: done) rest := by
  rw [List.cons_append, readChars, if_neg (by decide), if_pos rfl, stands]
  exact readChars_pending escape (d :: done) taken rest

theorem strictEscape_plain {e d : Char} (known : plainEscape? e = some d) (rest : List Char) :
    strictEscape (e :: rest) = .ok (d, 1) := by
  have other : e ≠ 'u' := by
    rintro rfl
    simp [plainEscape?] at known
  rw [strictEscape, known]
  exact fun same => absurd same other

theorem hexValue?_hexDigit : ∀ k < 16, Text.hexValue? (hexDigit k) = some k := by decide

theorem strictEscape_control {c : Char} (control : c.toNat < 32) (rest : List Char) :
    strictEscape (['u', '0', '0', hexDigit (c.toNat / 16), hexDigit (c.toNat % 16)] ++ rest) = .ok (c, 5) := by
  have high : Text.hexValue? (hexDigit (c.toNat / 16)) = some (c.toNat / 16) := hexValue?_hexDigit _ (by omega)
  have low : Text.hexValue? (hexDigit (c.toNat % 16)) = some (c.toNat % 16) := hexValue?_hexDigit _ (by omega)
  have zero : Text.hexValue? '0' = some 0 := by decide
  have number : hexNumber (['0', '0', hexDigit (c.toNat / 16), hexDigit (c.toNat % 16)] ++ rest) =
      .ok c.toNat := by
    simp only [List.cons_append, hexNumber, zero, high, low]
    congr 1
    omega
  have single : isLowSurrogate c.toNat = false ∧ isHighSurrogate c.toNat = false := by
    simp only [isLowSurrogate, isHighSurrogate, Bool.and_eq_false_iff, decide_eq_false_iff_not]
    omega
  have stands : unicodeEscape (['0', '0', hexDigit (c.toNat / 16), hexDigit (c.toNat % 16)] ++ rest) =
      .ok (c, 4) := by
    rw [unicodeEscape, number]
    simp [bind, Except.bind, single, Char.ofNat_toNat]
  rw [List.cons_append, strictEscape, stands]
  rfl

theorem readChars_printChar (c : Char) (done rest : List Char) :
    readChars strictEscape 0 done (printChar c ++ rest) = readChars strictEscape 0 (c :: done) rest := by
  have plain (e d : Char) (known : plainEscape? e = some d) :
      readChars strictEscape 0 done ('\\' :: [e] ++ rest) = readChars strictEscape 0 (d :: done) rest :=
    readChars_escape (strictEscape_plain known rest) done
  rw [printChar]
  split_ifs with quote backslash backspace feed line carriage tab control
  · exact quote ▸ plain '"' '"' rfl
  · exact backslash ▸ plain '\\' '\\' rfl
  · exact backspace ▸ plain 'b' '\x08' rfl
  · exact feed ▸ plain 'f' '\x0c' rfl
  · exact line ▸ plain 'n' '\n' rfl
  · exact carriage ▸ plain 'r' '\r' rfl
  · exact tab ▸ plain 't' '\t' rfl
  · exact readChars_escape (strictEscape_control control rest) done
  · rw [List.singleton_append, readChars, if_neg quote, if_neg backslash, if_neg control]

theorem readChars_flatMap_printChar (cs done rest : List Char) :
    readChars strictEscape 0 done (cs.flatMap printChar ++ '"' :: rest) =
      .ok (String.ofList (done.reverse ++ cs), rest) := by
  induction cs generalizing done with
  | nil => simp [readChars]
  | cons c cs ih =>
    rw [List.flatMap_cons, List.append_assoc, readChars_printChar, ih, List.reverse_cons, List.append_assoc,
      List.singleton_append]

/-- What is printed of a string after the quote that opens it. -/
def printedTail (s : String) : List Char := s.toList.flatMap printChar ++ ['"']

theorem printString_eq (s : String) : printString s = '"' :: printedTail s := rfl

theorem reads_readString (s : String) : Reads readString (printedTail s) s := fun rest => by
  rw [printedTail, List.append_assoc, List.singleton_append, readString, readChars_flatMap_printChar]
  simp

/-! ### Numbers -/

theorem le_ofDigitChars (digits : List Char) (n : Nat) : n ≤ Nat.ofDigitChars 10 digits n := by
  induction digits generalizing n with
  | nil => exact Nat.le_refl n
  | cons d rest ih =>
    rw [Nat.ofDigitChars_cons]
    have := ih (10 * n + (d.toNat - '0'.toNat))
    omega

/-- Digits of a number that fits are all taken. -/
theorem takeDigits_eq {digits : List Char} {n : Nat} (fits : Nat.ofDigitChars 10 digits n < Nat.pow 2 64) :
    Decimal.takeDigits n digits = (Nat.ofDigitChars 10 digits n, []) := by
  induction digits generalizing n with
  | nil => rfl
  | cons d rest ih =>
    rw [Nat.ofDigitChars_cons, Nat.mul_comm] at fits ⊢
    have small : n * 10 + (d.toNat - 48) < Nat.pow 2 64 :=
      Nat.lt_of_le_of_lt (le_ofDigitChars rest _) fits
    rw [Decimal.takeDigits, if_pos small]
    exact ih fits

theorem takeDigits_toDigits {n : Nat} (fits : n < Nat.pow 2 64) :
    Decimal.takeDigits 0 (Nat.toDigits 10 n) = (n, []) := by
  have value := Nat.ofDigitChars_toDigits (b := 10) (n := n) (by decide) (by decide)
  rw [takeDigits_eq (value.symm ▸ fits), value]

theorem head?_toDigits_ne_zero {n : Nat} (positive : 0 < n) : (Nat.toDigits 10 n).head? ≠ some '0' := by
  have digit : ∀ k < 10, 0 < k → k.digitChar ≠ '0' := by decide
  induction n using Nat.strongRecOn with
  | ind n ih =>
    rw [Nat.toDigits_eq_if (by decide)]
    split
    · next small => simpa using digit n small positive
    · next large =>
      rw [List.head?_append_of_ne_nil _ Nat.toDigits_ne_nil]
      exact ih (n / 10) (by omega) (by omega)

theorem toDigits_ne_zero_cons (n : Nat) (d : Char) (more : List Char) :
    Nat.toDigits 10 n ≠ '0' :: d :: more := by
  intro same
  rcases Nat.eq_zero_or_pos n with rfl | positive
  · exact absurd same (by simp)
  · exact head?_toDigits_ne_zero positive (by rw [same]; rfl)

theorem takeWhile_toDigits (n : Nat) {rest : List Char} (ends : Ends rest) :
    (Nat.toDigits 10 n ++ rest).takeWhile isDigit = Nat.toDigits 10 n ∧
      (Nat.toDigits 10 n ++ rest).dropWhile isDigit = rest := by
  have digits : ∀ c ∈ Nat.toDigits 10 n, isDigit c = true := fun c hc =>
    Nat.isDigit_of_mem_toDigits (by decide) (by decide) hc
  have stops : rest.takeWhile isDigit = [] ∧ rest.dropWhile isDigit = rest := by
    cases rest with
    | nil => exact ⟨rfl, rfl⟩
    | cons c s => simp [ends c rfl]
  rw [List.takeWhile_append_of_pos digits, List.dropWhile_append_of_pos digits, stops.1, stops.2,
    List.append_nil]
  exact ⟨rfl, rfl⟩

theorem readAfterWhole_toDigits (negative : Bool) {n : Nat} (fits : n < Nat.pow 2 64) {rest : List Char}
    (ends : Ends rest) :
    readAfterWhole negative (Nat.toDigits 10 n) rest = .ok (wholeNumber negative n, rest) := by
  rw [readAfterWhole, takeDigits_toDigits fits]
  cases rest with
  | nil => rfl
  | cons c s =>
    obtain ⟨-, noPoint, noMark⟩ := ends c rfl
    simp [noPoint, noMark]

theorem yields_readNumber (negative : Bool) {n : Nat} (fits : n < Nat.pow 2 64) :
    Yields (readNumber negative) (Nat.toDigits 10 n) (wholeNumber negative n) := by
  intro rest ends
  obtain ⟨taken, left⟩ := takeWhile_toDigits n ends
  rw [readNumber, taken, left]
  split
  · next none => exact absurd none Nat.toDigits_ne_nil
  · next leading => exact absurd leading (toDigits_ne_zero_cons n _ _)
  · exact readAfterWhole_toDigits negative fits ends

theorem wholeNumber_natAbs (n : Whole) : wholeNumber (decide (n.val < 0)) n.val.natAbs = .whole n := by
  have back : (if decide (n.val < 0) then -(n.val.natAbs : Int) else n.val.natAbs) = n.val := by
    by_cases negative : n.val < 0
    · rw [if_pos (decide_eq_true negative)]
      omega
    · rw [decide_eq_false negative, if_neg Bool.false_ne_true]
      omega
  have noNegativeZero : ¬ (decide (n.val < 0) && n.val.natAbs = 0) = true := by
    rw [Bool.and_eq_true, decide_eq_true_eq, decide_eq_true_eq]
    omega
  rw [wholeNumber, if_neg noNegativeZero, back, Whole.ofInt?, dif_pos ⟨n.lower, n.upper⟩]

end PortfolioShell.Json
