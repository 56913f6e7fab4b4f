import Mathlib.Data.List.DropRight
import PortfolioShell.Shell.CommandLine

/-! # Words of a line

What trimming leaves, and when. A text without blanks at its ends is left as it is, so trimming twice is
trimming once; and a line that was put together from a word, a blank and an argument is taken apart into
that word and that argument. -/

namespace PortfolioShell

namespace Text

/-- No blank stands at either end. -/
structure Trim (s : List Char) : Prop where
  first : ∀ c ∈ s.head?, isBlank c = false
  last : ∀ c ∈ s.getLast?, isBlank c = false

theorem trim_iff {s : List Char} : Trim s ↔ (s.head?.all (!isBlank ·) && s.getLast?.all (!isBlank ·)) = true := by
  rw [Bool.and_eq_true, Option.all_eq_true, Option.all_eq_true]
  constructor
  · rintro ⟨first, last⟩
    exact ⟨fun c h => by simp [first c h], fun c h => by simp [last c h]⟩
  · rintro ⟨first, last⟩
    exact ⟨fun c h => by simpa using first c h, fun c h => by simpa using last c h⟩

instance (s : List Char) : Decidable (Trim s) := decidable_of_iff _ trim_iff.symm

theorem any_isBlank_eq_false {s : List Char} : s.any isBlank = false ↔ ∀ c ∈ s, isBlank c = false := by
  simp [List.any_eq_false]

theorem Trim.of_solid {s : List Char} (solid : ∀ c ∈ s, isBlank c = false) : Trim s where
  first c h := solid c (List.mem_of_mem_head? h)
  last c h := solid c (List.mem_of_mem_getLast? h)

theorem first_append_of_solid {word : List Char} (filled : word ≠ []) (solid : ∀ c ∈ word, isBlank c = false)
    (after : List Char) : ∀ c ∈ (word ++ after).head?, isBlank c = false := by
  intro c h
  rw [List.head?_append_of_ne_nil _ filled] at h
  exact solid c (List.mem_of_mem_head? h)

/-- Whatever stands between the first part and the last. -/
theorem Trim.append {front core : List Char} (filled : front ≠ []) (starts : Trim front) (given : core ≠ [])
    (ends : Trim core) (between : List Char) : Trim (front ++ (between ++ core)) where
  first c h := by
    rw [List.head?_append_of_ne_nil _ filled] at h
    exact starts.first c h
  last c h := by
    rw [← List.append_assoc, List.getLast?_append_of_ne_nil _ given] at h
    exact ends.last c h

theorem Trim.word_append {word core : List Char} (filled : word ≠ []) (solid : ∀ c ∈ word, isBlank c = false)
    (given : core ≠ []) (ends : Trim core) (between : List Char) : Trim (word ++ (between ++ core)) :=
  .append filled (.of_solid solid) given ends between

theorem Trim.of_suffix {s part : List Char} (trim : Trim s) (behind : part <:+ s) (first : ∀ c ∈ part.head?, isBlank c = false) :
    Trim part where
  first := first
  last c h := by
    obtain ⟨front, rfl⟩ := behind
    refine trim.last c ?_
    rw [List.getLast?_append, Option.mem_def.mp h]
    rfl

theorem dropStart_of_first {s : List Char} (first : ∀ c ∈ s.head?, isBlank c = false) : dropStart s = s := by
  cases s with
  | nil => rfl
  | cons c rest =>
    have solid : isBlank c = false := first c rfl
    simp [dropStart, solid]

theorem dropStart_append_of_blank {lead : List Char} (blank : ∀ c ∈ lead, isBlank c = true) (s : List Char) :
    dropStart (lead ++ s) = dropStart s := by
  induction lead with
  | nil => rfl
  | cons c rest ih =>
    have skipped : isBlank c = true := blank c List.mem_cons_self
    have others : ∀ d ∈ rest, isBlank d = true := fun d member => blank d (List.mem_cons_of_mem c member)
    simpa [dropStart, skipped] using ih others

theorem first_dropStart (s : List Char) : ∀ c ∈ (dropStart s).head?, isBlank c = false := by
  intro c h
  have stopped := List.head?_dropWhile_not isBlank s
  rw [dropStart, Option.mem_def] at h
  rw [h] at stopped
  exact stopped

theorem dropEnd_eq_rdropWhile (s : List Char) : dropEnd s = s.rdropWhile isBlank := rfl

theorem dropEnd_of_last {s : List Char} (last : ∀ c ∈ s.getLast?, isBlank c = false) : dropEnd s = s := by
  rw [dropEnd_eq_rdropWhile, List.rdropWhile_eq_self_iff]
  intro filled blank
  have solid := last (s.getLast filled) (List.getLast?_eq_some_getLast filled)
  simp [solid] at blank

theorem last_dropEnd (s : List Char) : ∀ c ∈ (dropEnd s).getLast?, isBlank c = false := by
  intro c h
  obtain ⟨filled, rfl⟩ := List.mem_getLast?_eq_getLast h
  exact eq_false_of_ne_true (List.rdropWhile_last_not isBlank s filled)

theorem Trim.dropEnds_eq {s : List Char} (h : Trim s) : dropEnds s = s := by
  rw [dropEnds, dropStart_of_first h.first, dropEnd_of_last h.last]

/-- Dropping blanks at the end leaves the first character, if it leaves any. -/
theorem trim_dropEnd {s : List Char} (first : ∀ c ∈ s.head?, isBlank c = false) : Trim (dropEnd s) where
  first c h := by
    obtain ⟨tail, split⟩ : dropEnd s <+: s := List.rdropWhile_prefix isBlank _
    refine first c ?_
    rw [← split, List.head?_append, Option.mem_def.mp h]
    rfl
  last := last_dropEnd s

theorem trim_dropEnds (s : List Char) : Trim (dropEnds s) := trim_dropEnd (first_dropStart s)

theorem dropEnds_dropEnds (s : List Char) : dropEnds (dropEnds s) = dropEnds s :=
  (trim_dropEnds s).dropEnds_eq

theorem dropEnds_eq_nil_iff {s : List Char} : dropEnds s = [] ↔ ∀ c ∈ s, isBlank c = true := by
  rw [dropEnds, dropEnd_eq_rdropWhile, List.rdropWhile_eq_nil_iff]
  constructor
  · intro blank
    have none : dropStart s = [] := by
      cases start : dropStart s with
      | nil => rfl
      | cons c rest =>
        have solid := first_dropStart s c (by rw [start]; rfl)
        have skipped := blank c (by rw [start]; exact List.mem_cons_self)
        rw [solid] at skipped
        cases skipped
    exact List.dropWhile_eq_nil_iff.mp none
  · intro blank c member
    exact blank c ((List.dropWhile_sublist isBlank).subset member)

theorem dropEnds_append_of_blank {lead core tail : List Char} (before : ∀ c ∈ lead, isBlank c = true)
    (filled : core ≠ []) (ends : Trim core) (after : ∀ c ∈ tail, isBlank c = true) :
    dropEnds (lead ++ core ++ tail) = core := by
  have start : dropStart (lead ++ core ++ tail) = core ++ tail := by
    rw [List.append_assoc, dropStart_append_of_blank before, dropStart_of_first]
    intro c h
    rw [List.head?_append_of_ne_nil _ filled] at h
    exact ends.first c h
  have behind : dropEnd (core ++ tail) = dropEnd core := by
    rw [dropEnd, List.reverse_append, ← dropStart, dropStart_append_of_blank (by simpa using after), dropStart, ← dropEnd]
  rw [dropEnds, start, behind, dropEnd_of_last ends.last]

theorem exists_dropEnd (s : List Char) : ∃ tail, s = dropEnd s ++ tail ∧ ∀ c ∈ tail, isBlank c = true := by
  refine ⟨s.rtakeWhile isBlank, ?_, fun c => List.mem_rtakeWhile_imp⟩
  rw [dropEnd_eq_rdropWhile, List.rdropWhile_append_rtakeWhile]

/-- Trimming takes nothing but blanks, at the start and at the end. -/
theorem exists_dropEnds (s : List Char) : ∃ lead tail, s = lead ++ dropEnds s ++ tail ∧
    (∀ c ∈ lead, isBlank c = true) ∧ ∀ c ∈ tail, isBlank c = true := by
  obtain ⟨tail, split, behind⟩ := exists_dropEnd (dropStart s)
  refine ⟨s.takeWhile isBlank, tail, ?_, fun c => List.mem_takeWhile_imp, behind⟩
  rw [dropEnds, List.append_assoc, ← split, dropStart, List.takeWhile_append_dropWhile]

theorem toList_trimmed (s : String) : (trimmed s).toList = dropEnds s.toList := String.toList_ofList

/-! ### The first word -/

section FirstWord

variable {word after : List Char} (solid : ∀ c ∈ word, isBlank c = false)
  (cut : ∀ c ∈ after.head?, isBlank c = true)

include solid cut

theorem firstWord_append : firstWord (word ++ after) = word := by
  induction word with
  | nil =>
    cases after with
    | nil => rfl
    | cons c rest => simp [firstWord, cut c rfl]
  | cons c rest ih =>
    have kept : isBlank c = false := solid c List.mem_cons_self
    simpa [firstWord, kept] using ih fun d member => solid d (List.mem_cons_of_mem c member)

theorem afterWord_append : afterWord (word ++ after) = after := by
  have parts := firstWord_append_afterWord (word ++ after)
  rw [firstWord_append solid cut] at parts
  exact List.append_cancel_left parts

end FirstWord

theorem blank_afterWord (s : List Char) : ∀ c ∈ (afterWord s).head?, isBlank c = true := by
  intro c h
  have stopped := List.head?_dropWhile_not (!isBlank ·) s
  rw [afterWord, Option.mem_def] at h
  rw [h] at stopped
  simpa using stopped

theorem firstWord_ne_nil {s : List Char} (filled : s ≠ []) (first : ∀ c ∈ s.head?, isBlank c = false) : firstWord s ≠ [] := by
  obtain ⟨c, rest, rfl⟩ := List.exists_cons_of_ne_nil filled
  simp [firstWord, first c rfl]

theorem solid_firstWord (s : List Char) : ∀ c ∈ firstWord s, isBlank c = false := fun c member => by
  simpa using List.mem_takeWhile_imp member

/-- Behind the first word come blanks, and behind these the rest, if there is one. -/
theorem exists_gap (s : List Char) : ∃ gap, afterWord s = gap ++ dropStart (afterWord s) ∧
    (∀ c ∈ gap, isBlank c = true) ∧ (dropStart (afterWord s) ≠ [] → gap ≠ []) := by
  refine ⟨(afterWord s).takeWhile isBlank, List.takeWhile_append_dropWhile.symm, fun c => List.mem_takeWhile_imp, ?_⟩
  intro more
  cases start : afterWord s with
  | nil => exact absurd (by rw [start]; rfl) more
  | cons c rest =>
    have blank : isBlank c = true := blank_afterWord s c (by rw [start]; rfl)
    simp [blank]

end Text

namespace CommandLine

open Text

theorem parse?_trimmed (line : String) : parse? (trimmed line) = parse? line := by
  simp only [parse?, toList_trimmed, dropEnds_dropEnds]

theorem parse?_eq_none_iff {line : String} : parse? line = none ↔ ∀ c ∈ line.toList, isBlank c = true := by
  rw [← dropEnds_eq_nil_iff, parse?]
  cases dropEnds line.toList with
  | nil => simp
  | cons c rest => simp

theorem parse?_of_trim {word after : List Char} (filled : word ≠ []) (solid : ∀ c ∈ word, isBlank c = false)
    (cut : ∀ c ∈ after.head?, isBlank c = true) (ends : Trim (word ++ after)) :
    parse? (String.ofList (word ++ after)) = some ⟨String.ofList word, String.ofList (dropStart after)⟩ := by
  obtain ⟨c, rest, split⟩ := List.exists_cons_of_ne_nil (List.append_ne_nil_of_left_ne_nil filled after)
  rw [parse?, String.toList_ofList, ends.dropEnds_eq, split]
  simp only [← split, firstWord_append solid cut, afterWord_append solid cut]

theorem eq_of_parse? {line : String} {command : CommandLine} (parsed : parse? line = some command) : dropEnds line.toList ≠ [] ∧
    command = ⟨String.ofList (firstWord (dropEnds line.toList)), String.ofList (dropStart (afterWord (dropEnds line.toList)))⟩ := by
  rw [parse?] at parsed
  cases text : dropEnds line.toList with
  | nil =>
    rw [text] at parsed
    cases parsed
  | cons c rest =>
    rw [text] at parsed
    exact ⟨List.cons_ne_nil c rest, (Option.some.inj parsed).symm⟩

/-- The argument of a line is its end, and a blank stands before it. -/
theorem exists_front_of_parse? {line : String} {command : CommandLine} (parsed : parse? (trimmed line) = some command)
    (given : command.args ≠ "") :
    ∃ front, (trimmed line).toList = front ++ command.args.toList ∧ ∀ c ∈ front.getLast?, isBlank c = true := by
  obtain ⟨-, rfl⟩ := eq_of_parse? parsed
  have text : dropEnds (trimmed line).toList = (trimmed line).toList := by rw [toList_trimmed, dropEnds_dropEnds]
  rw [text] at given ⊢
  obtain ⟨gap, split, between, parted⟩ := exists_gap (trimmed line).toList
  have gapped : gap ≠ [] := parted (by simpa using given)
  refine ⟨firstWord (trimmed line).toList ++ gap, ?_, fun c last => ?_⟩
  · rw [String.toList_ofList, List.append_assoc, ← split, firstWord_append_afterWord]
  · rw [List.getLast?_append_of_ne_nil _ gapped] at last
    exact between c (List.mem_of_mem_getLast? last)

/-- A word, a blank and an argument are read as they were put together. -/
theorem parse?_word_argument {word args : String} (filled : word ≠ "") (solid : ∀ c ∈ word.toList, isBlank c = false)
    (given : args ≠ "") (ends : Trim args.toList) : parse? (word ++ " " ++ args) = some ⟨word, args⟩ := by
  have text : word ++ " " ++ args = String.ofList (word.toList ++ ' ' :: args.toList) := by
    simp [String.ofList_append, String.append_assoc]
  have letters : word.toList ≠ [] := by simpa using filled
  have argument : args.toList ≠ [] := by simpa using given
  have trim : Trim (word.toList ++ ' ' :: args.toList) := .word_append letters solid argument ends [' ']
  have space : isBlank ' ' = true := by decide
  have cut : ∀ c ∈ (' ' :: args.toList).head?, isBlank c = true := by
    intro c h
    obtain rfl := Option.some.inj h
    exact space
  have kept : dropStart (' ' :: args.toList) = args.toList := by
    rw [← List.singleton_append, dropStart_append_of_blank (List.forall_mem_singleton.mpr space), dropStart_of_first ends.first]
  rw [text, parse?_of_trim letters solid cut trim, kept, String.ofList_toList, String.ofList_toList]

variable {lead word gap tail : List Char}

theorem parse?_surrounded {core : List Char} (before : ∀ c ∈ lead, isBlank c = true) (filled : core ≠ []) (ends : Trim core)
    (after : ∀ c ∈ tail, isBlank c = true) :
    parse? (String.ofList (lead ++ core ++ tail)) = parse? (String.ofList core) := by
  simp only [parse?, String.toList_ofList, dropEnds_append_of_blank before filled ends after, ends.dropEnds_eq]

/-- A word and an argument are read as they were put together, with blanks around and between them. -/
theorem parse?_parts {args : List Char} (before : ∀ c ∈ lead, isBlank c = true) (filled : word ≠ [])
    (solid : ∀ c ∈ word, isBlank c = false) (between : ∀ c ∈ gap, isBlank c = true) (parted : args ≠ [] → gap ≠ [])
    (ends : Trim args) (after : ∀ c ∈ tail, isBlank c = true) :
    parse? (String.ofList (lead ++ word ++ gap ++ args ++ tail)) = some ⟨String.ofList word, String.ofList args⟩ := by
  by_cases none : args = []
  · -- without an argument all blanks behind the word are dropped together
    subst none
    have blank : ∀ c ∈ gap ++ tail, isBlank c = true := List.forall_mem_append.mpr ⟨between, after⟩
    have alone : Trim (word ++ []) := by simpa using Trim.of_solid solid
    have parsed := @parse?_of_trim word [] filled solid (by simp) alone
    rw [List.append_nil] at parsed
    rw [List.append_nil, List.append_assoc, parse?_surrounded before filled (.of_solid solid) blank, parsed]
    rfl
  · have gapped : gap ≠ [] := parted none
    have cut : ∀ c ∈ (gap ++ args).head?, isBlank c = true := by
      intro c h
      rw [List.head?_append_of_ne_nil _ gapped] at h
      exact between c (List.mem_of_mem_head? h)
    have trim : Trim (word ++ (gap ++ args)) := .word_append filled solid none ends gap
    have argument : dropStart (gap ++ args) = args := by
      rw [dropStart_append_of_blank between, dropStart_of_first ends.first]
    have core : lead ++ word ++ gap ++ args ++ tail = lead ++ (word ++ (gap ++ args)) ++ tail := by simp
    rw [core, parse?_surrounded before (List.append_ne_nil_of_left_ne_nil filled _) trim after,
      parse?_of_trim filled solid cut trim, argument]

/-- What follows the first word does not matter for it, as long as a blank comes first. -/
theorem parse?_first_word {after : List Char} (before : ∀ c ∈ lead, isBlank c = true) (filled : word ≠ [])
    (solid : ∀ c ∈ word, isBlank c = false) (cut : ∀ c ∈ after.head?, isBlank c = true) :
    ∃ args, parse? (String.ofList (lead ++ word ++ after)) = some ⟨String.ofList word, args⟩ := by
  obtain ⟨gap, tail, split, between, behind⟩ := exists_dropEnds after
  have parted : dropEnds after ≠ [] → gap ≠ [] := by
    rintro given rfl
    obtain ⟨c, rest, start⟩ := List.exists_cons_of_ne_nil given
    have first : c ∈ after.head? := by
      rw [split, start]
      rfl
    have solid : isBlank c = false := (trim_dropEnds after).first c (by rw [start]; rfl)
    rw [cut c first] at solid
    cases solid
  have parsed := parse?_parts before filled solid between parted (trim_dropEnds after) behind
  refine ⟨String.ofList (dropEnds after), ?_⟩
  conv_lhs => rw [split]
  simpa using parsed

end CommandLine

end PortfolioShell
