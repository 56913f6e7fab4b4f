import Mathlib.Data.List.TakeWhile
import PortfolioShell.Text.Lowercase

/-! # The lower case of a beginning

Letter by letter a text is lower-cased where it stands, and only a capital sigma looks around. So the lower case of a
text is made of that of its parts, each between the others (`lowerAfter_append`), and what stands behind a part makes
a difference to it in one way only: a sigma at its end, which would be final there, is not final when the word goes
on (`lowerBetween_eq_iff`). A beginning that ends so is not lower-cased to a beginning (`lowerChars_prefix_iff`). -/

namespace PortfolioShell.Text

def isIgnorable (c : Char) : Bool := inRanges caseIgnorableRanges c

/-! ### Parts of a text -/

/-- Lower-cases a character between others; `before` holds those in front of it, the nearest first. -/
def lowerLetter (before : List Char) (c : Char) (after : List Char) : List Char :=
  if c = 'Σ' then [if startsCased before && !startsCased after then 'ς' else 'σ'] else lowerChar c

def lowerBetween (before : List Char) : List Char → List Char → List Char
  | [], _ => []
  | c :: rest, after => lowerLetter before c (rest ++ after) ++ lowerBetween (c :: before) rest after

theorem lowerAfter_append (before s after : List Char) :
    lowerAfter before (s ++ after) = lowerBetween before s after ++ lowerAfter (s.reverse ++ before) after := by
  induction s generalizing before with
  | nil => rfl
  | cons c rest ih =>
    have further : (c :: rest).reverse ++ before = rest.reverse ++ c :: before := by simp
    rw [List.cons_append, lowerAfter, ih, further, lowerBetween, lowerLetter, List.append_assoc]

theorem lowerBetween_nothing (before s : List Char) : lowerBetween before s [] = lowerAfter before s := by
  have whole := lowerAfter_append before s []
  rw [List.append_nil, lowerAfter, List.append_nil] at whole
  exact whole.symm

theorem length_lowerLetter (before before' : List Char) (c : Char) (after after' : List Char) :
    (lowerLetter before c after).length = (lowerLetter before' c after').length := by
  rw [lowerLetter, lowerLetter]
  split <;> rfl

theorem length_lowerBetween (before before' s after after' : List Char) :
    (lowerBetween before s after).length = (lowerBetween before' s after').length := by
  induction s generalizing before before' with
  | nil => rfl
  | cons c rest ih =>
    rw [lowerBetween, lowerBetween, List.length_append, List.length_append, ih (c :: before) (c :: before'),
      length_lowerLetter before before' c (rest ++ after) (rest ++ after')]

/-! ### Sigmas -/

/-- A sigma between these texts ends a word; the first of them is read backwards. -/
def endsWord (before after : List Char) : Bool := startsCased before && !startsCased after

theorem lowerLetter_eq_iff (before before' : List Char) (c : Char) (after after' : List Char) :
    lowerLetter before c after = lowerLetter before' c after' ↔ (c = 'Σ' → endsWord before after = endsWord before' after') := by
  rw [lowerLetter, lowerLetter, ← endsWord, ← endsWord]
  by_cases sigma : c = 'Σ'
  · cases endsWord before after <;> cases endsWord before' after' <;> simp [sigma]
  · simp [sigma]

/-- In two surroundings a text has the same lower case exactly when each of its sigmas ends a word in both or in
neither. -/
theorem lowerBetween_congr_iff (before before' s after after' : List Char) :
    lowerBetween before s after = lowerBetween before' s after' ↔ ∀ front back, s = front ++ 'Σ' :: back →
      endsWord (front.reverse ++ before) (back ++ after) = endsWord (front.reverse ++ before') (back ++ after') := by
  induction s generalizing before before' with
  | nil => simp [lowerBetween]
  | cons c rest ih =>
    have parts : lowerBetween before (c :: rest) after = lowerBetween before' (c :: rest) after' ↔
        lowerLetter before c (rest ++ after) = lowerLetter before' c (rest ++ after') ∧
          lowerBetween (c :: before) rest after = lowerBetween (c :: before') rest after' := by
      rw [lowerBetween, lowerBetween]
      constructor
      · intro same
        exact List.append_inj same (length_lowerLetter before before' c (rest ++ after) (rest ++ after'))
      · rintro ⟨letter, others⟩
        rw [letter, others]
    rw [parts, lowerLetter_eq_iff, ih]
    constructor
    · rintro ⟨here, later⟩ front back split
      cases front with
      | nil =>
        obtain ⟨rfl, rfl⟩ := List.cons.inj split
        exact here rfl
      | cons d front =>
        obtain ⟨rfl, rfl⟩ := List.cons.inj split
        simpa using later front back rfl
    · intro agree
      constructor
      · rintro rfl
        exact agree [] rest rfl
      · intro front back split
        simpa using agree (c :: front) back (by rw [split, List.cons_append])

/-! ### A sigma at the end -/

/-- Characters that are passed over aside, the text ends in a sigma, and a cased letter stands before that. -/
def EndsInSigma (before s : List Char) : Prop :=
  ∃ front marks : List Char, s = front ++ 'Σ' :: marks ∧ startsCased (front.reverse ++ before) = true ∧
    ∀ c ∈ marks, isIgnorable c = true

theorem startsCased_of_ignorable {s : List Char} (ignorable : ∀ c ∈ s, isIgnorable c = true) (t : List Char) :
    startsCased (s ++ t) = startsCased t := by
  have skipped : (s ++ t).dropWhile (inRanges caseIgnorableRanges) = t.dropWhile (inRanges caseIgnorableRanges) :=
    List.dropWhile_append_of_pos ignorable
  rw [startsCased, startsCased, skipped]

/-- The first character that is not passed over decides. -/
theorem startsCased_append {s : List Char} (stops : ¬ ∀ c ∈ s, isIgnorable c = true) (t : List Char) :
    startsCased (s ++ t) = startsCased s := by
  have left : s.dropWhile (inRanges caseIgnorableRanges) ≠ [] := fun none => stops (List.dropWhile_eq_nil_iff.mp none)
  obtain ⟨c, rest, first⟩ := List.exists_cons_of_ne_nil left
  have kept : (s ++ t).dropWhile (inRanges caseIgnorableRanges) = c :: (rest ++ t) := by
    rw [List.dropWhile_append, first]
    rfl
  rw [startsCased, startsCased, kept, first]

/-- What stands behind a text matters when a sigma at its end is final and the word goes on. -/
theorem lowerBetween_eq_iff (before s after : List Char) : lowerBetween before s after = lowerBetween before s [] ↔
    ¬ (EndsInSigma before s ∧ startsCased after = true) := by
  have nothing : startsCased [] = false := rfl
  rw [lowerBetween_congr_iff]
  constructor
  · rintro agree ⟨⟨front, marks, split, cased, ignorable⟩, goesOn⟩
    have same := agree front marks split
    rw [endsWord, endsWord, startsCased_of_ignorable ignorable, startsCased_of_ignorable ignorable, cased, goesOn,
      nothing] at same
    cases same
  · intro undisturbed front back split
    rw [endsWord, endsWord]
    by_cases ignorable : ∀ c ∈ back, isIgnorable c = true
    · -- nothing behind the sigma counts, so what comes after the text does
      rw [startsCased_of_ignorable ignorable, startsCased_of_ignorable ignorable, nothing]
      cases cased : startsCased (front.reverse ++ before) with
      | false => rfl
      | true =>
        have stops : startsCased after = false :=
          eq_false_of_ne_true fun goesOn => undisturbed ⟨⟨front, back, split, cased, ignorable⟩, goesOn⟩
        rw [stops]
    · rw [startsCased_append ignorable, startsCased_append ignorable]

/-- The lower case of a beginning is a beginning of the lower case, unless the beginning ends in a sigma of a word
that goes on. -/
theorem lowerChars_prefix_iff (s after : List Char) :
    lowerChars s <+: lowerChars (s ++ after) ↔ ¬ (EndsInSigma [] s ∧ startsCased after = true) := by
  have count : (lowerBetween [] s []).length = (lowerBetween [] s after).length := length_lowerBetween [] [] s [] after
  rw [lowerChars, lowerChars, lowerAfter_append, ← lowerBetween_nothing, ← lowerBetween_eq_iff]
  constructor
  · intro start
    -- both have the same length, so the one can begin the other only by being it
    have within : lowerBetween [] s after <+: lowerBetween [] s after ++ lowerAfter (s.reverse ++ []) after :=
      List.prefix_append _ _
    have both : lowerBetween [] s [] <+: lowerBetween [] s after :=
      List.prefix_of_prefix_length_le start within (Nat.le_of_eq count)
    exact (both.eq_of_length count).symm
  · intro same
    rw [same]
    exact List.prefix_append _ _

example : lowerChars "ΑΣ".toList <+: lowerChars "ΑΣ-Α".toList ∧ ¬ lowerChars "ΑΣ".toList <+: lowerChars "ΑΣΑ".toList := by
  decide +kernel

end PortfolioShell.Text
