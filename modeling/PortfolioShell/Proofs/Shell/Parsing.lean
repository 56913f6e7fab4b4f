import PortfolioShell.Proofs.Shell.Suggestions
import PortfolioShell.Proofs.Text.Words

/-! # Taking a line apart

A line that is not blank is a word and an argument with blanks around and between them, and there is one way only to see
it so: the word ends at the first blank behind its start, and the argument begins and ends with no blank. These two are
what is read from the line (`parse?_takes_apart`). Completion takes a line apart in its own way, because it must see the
blanks behind the word, and comes to the same word and argument (`parse?_of_splitWord?`). -/

namespace PortfolioShell

namespace CommandLine

open Text

/-- The line is the word and the argument, with blanks around and between them. -/
structure WrittenIn (command : CommandLine) (line : String) : Prop where
  text : ∃ lead gap tail : String, line = lead ++ command.word ++ gap ++ command.args ++ tail ∧
    (∀ c ∈ lead.toList, isBlank c = true) ∧ (∀ c ∈ gap.toList, isBlank c = true) ∧ (∀ c ∈ tail.toList, isBlank c = true) ∧
    (command.args ≠ "" → gap ≠ "")
  filled : command.word ≠ ""
  solid : ∀ c ∈ command.word.toList, isBlank c = false
  trim : Trim command.args.toList

variable {line : String} {command : CommandLine}

theorem writtenIn_of_parse? (parsed : parse? line = some command) : command.WrittenIn line := by
  obtain ⟨filled, rfl⟩ := eq_of_parse? parsed
  obtain ⟨lead, tail, whole, before, behind⟩ := exists_dropEnds line.toList
  have trim : Trim (dropEnds line.toList) := trim_dropEnds line.toList
  generalize dropEnds line.toList = core at filled whole trim ⊢
  obtain ⟨gap, split, between, parted⟩ := exists_gap core
  have suffix : dropStart (afterWord core) <:+ core :=
    (List.dropWhile_suffix isBlank).trans (List.dropWhile_suffix _)
  refine ⟨⟨String.ofList lead, String.ofList gap, String.ofList tail, ?_, ?_, ?_, ?_, ?_⟩, ?_, ?_, ?_⟩
  · have letters : core = firstWord core ++ (gap ++ dropStart (afterWord core)) := by
      rw [← split, firstWord_append_afterWord]
    rw [← String.toList_inj, whole]
    conv_lhs => rw [letters]
    simp
  · rwa [String.toList_ofList]
  · rwa [String.toList_ofList]
  · rwa [String.toList_ofList]
  · simpa using parted
  · simpa using firstWord_ne_nil filled trim.first
  · rw [String.toList_ofList]
    exact solid_firstWord core
  · rw [String.toList_ofList]
    exact trim.of_suffix suffix (first_dropStart (afterWord core))

theorem WrittenIn.parse?_eq (written : command.WrittenIn line) : parse? line = some command := by
  obtain ⟨lead, gap, tail, text, before, between, behind, parted⟩ := written.text
  have letters : line = String.ofList (lead.toList ++ command.word.toList ++ gap.toList ++ command.args.toList ++ tail.toList) := by
    simp [text, String.ofList_append, String.append_assoc]
  rw [letters, parse?_parts before (by simpa using written.filled) written.solid between (by simpa using parted) written.trim behind]
  simp

theorem parse?_eq_some_iff : parse? line = some command ↔ command.WrittenIn line :=
  ⟨writtenIn_of_parse?, WrittenIn.parse?_eq⟩

theorem WrittenIn.spaced (written : command.WrittenIn line) : command.WrittenIn (command.word ++ " " ++ command.args) where
  text := ⟨"", " ", "", by simp, by simp, List.all_eq_true.mp (by decide), by simp, fun _ => by decide⟩
  filled := written.filled
  solid := written.solid
  trim := written.trim

/-- Nothing is read exactly from a line of blanks. From any other line the word and the argument are read that are
written in it, and no others are; with a space between them, or from the line without the blanks at its ends, the same
are read again. -/
theorem parse?_takes_apart (line : String) :
    (parse? line = none ↔ ∀ c ∈ line.toList, isBlank c = true) ∧
    ((∃ c ∈ line.toList, isBlank c = false) → ∃ command, parse? line = some command ∧ command.WrittenIn line ∧
      (∀ other : CommandLine, other.WrittenIn line → other = command) ∧
      parse? (command.word ++ " " ++ command.args) = some command ∧ parse? (trimmed line) = some command) := by
  refine ⟨parse?_eq_none_iff, ?_⟩
  rintro ⟨c, inside, solid⟩
  have reads : parse? line ≠ none := fun nothing => by
    rw [parse?_eq_none_iff.mp nothing c inside] at solid
    cases solid
  obtain ⟨command, parsed⟩ := Option.ne_none_iff_exists'.mp reads
  have written : command.WrittenIn line := writtenIn_of_parse? parsed
  refine ⟨command, parsed, written, fun other also => ?_, written.spaced.parse?_eq, (parse?_trimmed line).trans parsed⟩
  exact Option.some.inj (also.parse?_eq.symm.trans parsed)

/-- An ideographic space stands at the start, and a no-break space between word and argument. -/
theorem parse?_takes_apart_sample :
    'c' ∈ "\u3000 cd\u00a0 a \tb \n".toList ∧ isBlank 'c' = false ∧
      (⟨"cd", "a \tb"⟩ : CommandLine).WrittenIn "\u3000 cd\u00a0 a \tb \n" ∧
      parse? "\u3000 cd\u00a0 a \tb \n" = some ⟨"cd", "a \tb"⟩ ∧ parse? "cd a \tb" = some ⟨"cd", "a \tb"⟩ := by
  have inside : 'c' ∈ "\u3000 cd\u00a0 a \tb \n".toList := by decide
  have solid : isBlank 'c' = false := by decide
  have blank {gap : String} (all : gap.toList.all isBlank = true) : ∀ c ∈ gap.toList, isBlank c = true :=
    List.all_eq_true.mp all
  have written : (⟨"cd", "a \tb"⟩ : CommandLine).WrittenIn "\u3000 cd\u00a0 a \tb \n" :=
    ⟨⟨"\u3000 ", "\u00a0 ", " \n", by decide, blank (by decide), blank (by decide), blank (by decide), by decide⟩,
      by decide, any_isBlank_eq_false.mp (by decide), by decide⟩
  obtain ⟨command, parsed, -, only, again, -⟩ :=
    (parse?_takes_apart "\u3000 cd\u00a0 a \tb \n").2 ⟨'c', inside, solid⟩
  obtain rfl := only _ written
  exact ⟨inside, solid, written, parsed, again⟩

end CommandLine

/-! ### Lines that are still typed -/

namespace Suggestion

open Text

variable {typed word gap rest : String}

/-- The word is read as it stands, and the rest without the blanks at its end. -/
theorem Parts.writtenIn (parts : Parts typed word gap rest) :
    CommandLine.WrittenIn ⟨word, String.ofList (dropEnd rest.toList)⟩ typed where
  text := by
    obtain ⟨lead, before, text⟩ := parts.text
    obtain ⟨tail, split, behind⟩ := exists_dropEnd rest.toList
    have whole : String.ofList (dropEnd rest.toList) ++ String.ofList tail = rest := by
      rw [← String.ofList_append, ← split, String.ofList_toList]
    refine ⟨lead, gap, String.ofList tail, ?_, before, parts.between, by rwa [String.toList_ofList],
      fun given => parts.parted ?_⟩
    · calc typed = lead ++ word ++ gap ++ rest := text
        _ = lead ++ word ++ gap ++ (String.ofList (dropEnd rest.toList) ++ String.ofList tail) := by rw [whole]
        _ = lead ++ word ++ gap ++ String.ofList (dropEnd rest.toList) ++ String.ofList tail := String.append_assoc.symm
    · rintro rfl
      exact given rfl
  filled := parts.filled
  solid := parts.solid
  trim := by
    rw [String.toList_ofList]
    exact trim_dropEnd parts.first

/-- A line that is still typed is completed from what would be read of it. Once a blank follows its first word, this word
and the rest are read, without the blanks at the end; before that, the whole line from its first word on is the word, and
there is no argument. -/
theorem parse?_of_splitWord? (typed : String) (filled : ∃ c ∈ typed.toList, isBlank c = false) :
    let line := dropStart typed.toList
    (∀ word rest, splitWord? line = some (word, rest) →
      CommandLine.parse? typed = some ⟨String.ofList word, String.ofList (dropEnd rest)⟩) ∧
    (splitWord? line = none → CommandLine.parse? typed = some ⟨trimmedStart typed, ""⟩) := by
  intro line
  obtain ⟨c, inside, solid⟩ := filled
  have filled : ¬ ∀ c ∈ typed.toList, isBlank c = true := fun blank => by
    rw [blank c inside] at solid
    cases solid
  obtain ⟨word, gap, rest, parts⟩ := exists_parts filled
  have start : line = word.toList ++ (gap.toList ++ rest.toList) := parts.dropStart_eq
  have split : splitWord? line = if gap = "" then none else some (word.toList, rest.toList) := by
    rw [start, parts.splitWord?_eq]
  have reads := CommandLine.parse?_eq_some_iff.mpr parts.writtenIn
  by_cases alone : gap = ""
  · obtain rfl := parts.rest_eq alone
    have whole : trimmedStart typed = word := by
      rw [trimmedStart, parts.dropStart_eq]
      simp [alone]
    rw [if_pos alone] at split
    refine ⟨fun _ _ found => ?_, fun _ => ?_⟩
    · rw [split] at found
      cases found
    · rw [reads, whole]
      rfl
  · rw [if_neg alone] at split
    refine ⟨fun _ _ found => ?_, fun missing => ?_⟩
    · obtain ⟨rfl, rfl⟩ := Prod.mk.inj (Option.some.inj (split.symm.trans found))
      rw [reads, String.ofList_toList]
    · rw [split] at missing
      cases missing

theorem parse?_of_splitWord?_sample :
    let line := "\u3000Cd\u2003\u00a0 a \tb\u2028 "
    'C' ∈ line.toList ∧ isBlank 'C' = false ∧
      splitWord? (dropStart line.toList) = some (['C', 'd'], ['a', ' ', '\t', 'b', '\u2028', ' ']) ∧
      CommandLine.parse? line = some ⟨"Cd", "a \tb"⟩ ∧
      splitWord? (dropStart "\u3000Cd".toList) = none ∧ CommandLine.parse? "\u3000Cd" = some ⟨"Cd", ""⟩ := by
  intro line
  have inside : 'C' ∈ line.toList := by decide
  have solid : isBlank 'C' = false := by decide
  have parted : splitWord? (dropStart line.toList) = some (['C', 'd'], ['a', ' ', '\t', 'b', '\u2028', ' ']) := by decide
  have alone : splitWord? (dropStart "\u3000Cd".toList) = none := by decide
  exact ⟨inside, solid, parted, (parse?_of_splitWord? line ⟨'C', inside, solid⟩).1 _ _ parted, alone,
    (parse?_of_splitWord? "\u3000Cd" ⟨'C', by decide, solid⟩).2 alone⟩

end Suggestion

end PortfolioShell
