import PortfolioShell.Proofs.Json.Loops

/-! # Scanning in two ways

What the strict scanners take for a string or a number, the loose ones take as well and stop at the same place.
A pair of escapes that writes one character strictly is two characters loosely, so the two gather different texts,
but both end at the same quote. No scanner leaves more of a text than it has been given. -/

namespace PortfolioShell.Json

variable {α : Type}

/-! ### Strings -/

theorem skipDigits_of_ne {s : List Char} (digits : s.takeWhile isDigit ≠ []) :
    skipDigits s = .ok ((), s.dropWhile isDigit) := by
  rw [skipDigits, if_neg digits]

section

variable {negative : Bool} {significand : Nat} {power : Int} {digits s rest : List Char} {n : Number}

theorem rest_of_finishNumber (read : finishNumber negative significand power s = .ok (n, rest)) : rest = s := by
  rw [finishNumber] at read
  split at read
  · cases read
    rfl
  · cases read

theorem skipDigits_of_readExponent (read : readExponent negative significand power s = .ok (n, rest)) :
    skipDigits (exponentSign s).2 = .ok ((), rest) := by
  rw [readExponent] at read
  dsimp only at read
  split_ifs at read with none
  · cases read
    exact skipDigits_of_ne none
  · rw [rest_of_finishNumber read, skipDigits_of_ne none]
  · rw [rest_of_finishNumber read, skipDigits_of_ne none]

theorem skipExponent_of_readAfterDigits (read : readAfterDigits negative significand power s = .ok (n, rest)) :
    skipExponent s = .ok ((), rest) := by
  cases s with
  | nil =>
    rw [rest_of_finishNumber read]
    rfl
  | cons c s =>
    rw [readAfterDigits] at read
    rw [skipExponent]
    split_ifs at read ⊢ with mark
    · exact skipDigits_of_readExponent read
    · rw [rest_of_finishNumber read]

theorem skipFraction_of_readFraction (read : readFraction negative significand power s = .ok (n, rest)) :
    (skipDigits s >>= fun (_, after) => skipExponent after) = .ok ((), rest) := by
  rw [readFraction] at read
  dsimp only at read
  split_ifs at read with none
  rw [skipDigits_of_ne none]
  exact skipExponent_of_readAfterDigits read

theorem skipAfterWhole_of_readAfterWhole (read : readAfterWhole negative digits s = .ok (n, rest)) :
    (match s with
      | '.' :: after => skipDigits after >>= fun (_, more) => skipExponent more
      | _ => skipExponent s) = .ok ((), rest) := by
  rw [readAfterWhole] at read
  split
  · exact skipFraction_of_readFraction read
  · next other =>
    simp only at read
    split_ifs at read with mark
    · exact skipExponent_of_readAfterDigits read
    · cases read
      cases s with
      | nil => rfl
      | cons c s =>
        have plain : ¬ isExponentMark c = true := fun isMark => mark (by simp [isMark])
        rw [skipExponent, if_neg plain]

theorem skipNumber_of_readNumber (read : readNumber negative s = .ok (n, rest)) : skipNumber s = .ok ((), rest) := by
  rw [readNumber] at read
  split at read
  · split_ifs at read
  · cases read
  · next noDigits leading =>
    have some : s.takeWhile isDigit ≠ [] := noDigits
    rw [skipNumber]
    split
    · next zero => exact absurd zero (leading _ _)
    · rw [skipDigits_of_ne some]
      exact skipAfterWhole_of_readAfterWhole read

end

/-! ### What is left of a text -/

/-- A reader that leaves no more of a text than it has been given. -/
def Shrinks (reader : Reader α) : Prop := ∀ s x rest, reader s = .ok (x, rest) → rest.length ≤ s.length

theorem length_skipBlanks_le (s : List Char) : (skipBlanks s).length ≤ s.length := (List.dropWhile_suffix _).length_le

theorem length_lt_of_skipBlanks {s rest : List Char} {c : Char} (start : skipBlanks s = c :: rest) :
    rest.length < s.length := by
  have := length_skipBlanks_le s
  rw [start, List.length_cons] at this
  omega

theorem shrinks_readWord (word : List Char) : Shrinks (readWord word) := by
  induction word with
  | nil =>
    intro s x rest read
    cases read
    exact Nat.le_refl _
  | cons w word ih =>
    intro s x rest read
    cases s with
    | nil => cases read
    | cons c s =>
      rw [readWord] at read
      split_ifs at read
      exact Nat.le_succ_of_le (ih s x rest read)

theorem shrinks_readChars (escape : List Char → Except Fault (Char × Nat)) (pending : Nat) (done : List Char) :
    Shrinks (readChars escape pending done) := by
  intro s x rest read
  induction s generalizing pending done with
  | nil => rw [readChars] at read; cases read
  | cons c s ih =>
    refine Nat.le_trans ?_ (Nat.le_succ s.length)
    cases pending with
    | succ pending => exact ih pending done read
    | zero =>
      rw [readChars] at read
      split_ifs at read
      · cases read
        exact Nat.le_refl _
      · split at read
        · exact ih _ _ read
        · cases read
      · exact ih 0 _ read

theorem shrinks_skipDigits : Shrinks skipDigits := by
  intro s x rest read
  rw [skipDigits] at read
  split_ifs at read
  cases read
  exact (List.dropWhile_suffix _).length_le

theorem shrinks_skipExponent : Shrinks skipExponent := by
  intro s x rest read
  cases s with
  | nil =>
    cases read
    exact Nat.le_refl _
  | cons c s =>
    have sign : (exponentSign s).2.length ≤ s.length := by
      rw [exponentSign.eq_def]
      split <;> simp
    rw [skipExponent] at read
    split_ifs at read
    · have := shrinks_skipDigits _ x rest read
      rw [List.length_cons]
      omega
    · cases read
      exact Nat.le_refl _

theorem shrinks_skipNumber : Shrinks skipNumber := by
  intro s x rest read
  rw [skipNumber] at read
  split at read
  · cases read
  · obtain ⟨⟨_, after⟩, whole, read⟩ := bind_eq_ok_iff.mp read
    have := shrinks_skipDigits s _ after whole
    dsimp only at read
    split at read
    · next point =>
      obtain ⟨⟨_, more⟩, fraction, read⟩ := bind_eq_ok_iff.mp read
      have := shrinks_skipDigits _ _ more fraction
      have := shrinks_skipExponent more x rest read
      simp only [List.length_cons] at *
      omega
    · have := shrinks_skipExponent after x rest read
      omega

theorem shrinks_readNumber (negative : Bool) : Shrinks (readNumber negative) := fun s _ rest read =>
  shrinks_skipNumber s () rest (skipNumber_of_readNumber read)

end PortfolioShell.Json
