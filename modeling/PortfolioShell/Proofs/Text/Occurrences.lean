import PortfolioShell.Proofs.Text.Beginnings
import PortfolioShell.Proofs.Text.LetterCase

/-! # The lower case of a part

Where a part of a text is lower-cased as it is alone, its lower case is found in that of the text. That fails only by a
capital sigma, of which the letters around it decide whether it ends a word: in the part it may be the last letter of a
word that goes on in the text, or the first of a word that has begun before it (`lowerBetween_eq_lowerChars_iff`). A part
that blanks cut off from the rest is never disturbed (`undisturbed_of_cut`). -/

namespace PortfolioShell.Text

variable {before s after : List Char}

/-- Each capital sigma of `s` ends a word between `before` and `after` if it ends one in `s` alone, and only then. -/
def Undisturbed (before s after : List Char) : Prop :=
  ∀ front back, s = front ++ 'Σ' :: back →
    endsWord (front.reverse ++ before.reverse) (back ++ after) = endsWord front.reverse back

theorem lowerBetween_eq_lowerChars_iff :
    lowerBetween before.reverse s after = lowerChars s ↔ Undisturbed before s after := by
  rw [lowerChars, ← lowerBetween_nothing, lowerBetween_congr_iff]
  simp only [List.append_nil, Undisturbed]

theorem lowerChars_infix (undisturbed : Undisturbed before s after) :
    lowerChars s <:+: lowerChars (before ++ (s ++ after)) := by
  rw [lowerChars.eq_def (before ++ (s ++ after)), lowerAfter_append, List.append_nil, lowerAfter_append,
    lowerBetween_eq_lowerChars_iff.mpr undisturbed, ← List.append_assoc]
  exact List.infix_append _ _ _

/-! ### Parts between blanks -/

theorem startsCased_append_of_cut {t : List Char} (cut : ∀ c ∈ t.head?, isBlank c = true) (s : List Char) :
    startsCased (s ++ t) = startsCased s := by
  by_cases ignorable : ∀ c ∈ s, isIgnorable c = true
  · -- a blank is neither passed over nor a letter, so the look around ends there
    have stops : startsCased t = false := by
      cases t with
      | nil => rfl
      | cons c rest =>
        have plain : inRanges caseIgnorableRanges c = false ∧ inRanges casedRanges c = false :=
          of_isBlank (P := fun c => inRanges caseIgnorableRanges c = false ∧ inRanges casedRanges c = false)
            (cut c rfl) (by decide +kernel)
        simp [startsCased, plain]
    have nothing := startsCased_of_ignorable ignorable []
    rw [List.append_nil] at nothing
    rw [startsCased_of_ignorable ignorable, stops, nothing]
    rfl
  · exact startsCased_append ignorable t

theorem undisturbed_of_cut (begins : ∀ c ∈ before.getLast?, isBlank c = true) (ends : ∀ c ∈ after.head?, isBlank c = true) :
    Undisturbed before s after := by
  intro front back _
  have begins : ∀ c ∈ before.reverse.head?, isBlank c = true := by rwa [List.head?_reverse]
  rw [endsWord, startsCased_append_of_cut begins, startsCased_append_of_cut ends, endsWord]

end PortfolioShell.Text
