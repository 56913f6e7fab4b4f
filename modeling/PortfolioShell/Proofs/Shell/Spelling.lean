import PortfolioShell.Proofs.Shell.Commands
import PortfolioShell.Proofs.Shell.Recall
import PortfolioShell.Proofs.Shell.Records
import PortfolioShell.Proofs.Text.LetterCase

/-! # Spellings

One command can be entered in many ways: with a verb in any letter case and under any of its names, and with
any blanks around and between its parts. Lower-casing leaves blanks as they are, so a word that gives a verb
holds none, and the line is taken apart where it was put together (`Spells.says`). Two such lines come to the
same, except that each is echoed as it was entered (`spelling_is_immaterial`). -/

namespace PortfolioShell

/-! ### Words that give a verb -/

namespace Verb

theorem mem_spellings_of_ofWord? {word : String} {verb : Verb} (spelled : ofWord? word = some verb) :
    (Text.lowercase word, verb) ∈ spellings := by
  rw [ofWord?] at spelled
  obtain ⟨front, back, split, -⟩ := List.lookup_eq_some_iff.mp spelled
  rw [split]
  exact List.mem_append_right front List.mem_cons_self

theorem solid_of_ofWord? {word : String} {verb : Verb} (spelled : ofWord? word = some verb) :
    ∀ c ∈ word.toList, Text.isBlank c = false := by
  have known : ∀ spelling ∈ spellings, spelling.1.toList.any Text.isBlank = false := by decide +kernel
  have listed := known (Text.lowercase word, verb) (mem_spellings_of_ofWord? spelled)
  exact Text.isBlank_of_mem_lowercase (Text.any_isBlank_eq_false.mp listed)

theorem ne_empty_of_ofWord? {word : String} {verb : Verb} (spelled : ofWord? word = some verb) : word ≠ "" := by
  rintro rfl
  exact absurd spelled (by cases verb <;> decide)

end Verb

/-! ### Lines -/

def Payload.withInput (input : String) : Payload → Payload
  | .echo prompt _ => .echo prompt input
  | p => p

/-- The outcome with another line in the echo, which is the first record. -/
def Outcome.withInput (input : String) (o : Outcome) : Outcome where
  records := o.records.modifyHead fun r => { r with payload := r.payload.withInput input }
  requests := o.requests

namespace Session

open Text

/-- The lines that give a verb and an argument: a word for the verb and the argument, and blanks around and
between them. -/
inductive Spells (verb : Verb) (args : String) : String → Prop where
  | parts {lead word gap tail : String} (before : isBlankLine lead = true) (spelled : Verb.ofWord? word = some verb)
      (between : isBlankLine gap = true) (parted : args ≠ "" → gap ≠ "") (after : isBlankLine tail = true) :
      Spells verb args (lead ++ word ++ gap ++ args ++ tail)

variable {s : Session} {verb : Verb} {args line line' : String} {e : Effect}

theorem Spells.says (spells : Spells verb args line) (ends : Trim args.toList) : Says line verb args := by
  obtain @⟨lead, word, gap, tail, before, spelled, between, parted, after⟩ := spells
  rw [isBlankLine, List.all_eq_true] at before between after
  have letters : word.toList ≠ [] := by simpa using Verb.ne_empty_of_ofWord? spelled
  have apart : args.toList ≠ [] → gap.toList ≠ [] := by simpa using parted
  have parsed := CommandLine.parse?_parts before letters (Verb.solid_of_ofWord? spelled) between apart ends after
  have text : String.ofList (lead.toList ++ word.toList ++ gap.toList ++ args.toList ++ tail.toList) =
      lead ++ word ++ gap ++ args ++ tail := by
    simp [String.ofList_append, String.append_assoc]
  rw [text, String.ofList_toList, String.ofList_toList] at parsed
  exact ⟨⟨word, args⟩, by rw [CommandLine.parse?_trimmed, parsed], spelled, rfl⟩

theorem Says.isBlankLine_eq_false (said : Says line verb args) : isBlankLine line = false := by
  obtain ⟨command, parsed, -⟩ := said
  have filled : ¬ isBlankLine line = true := by simp [isBlankLine_iff, parsed]
  exact eq_false_of_ne_true filled

/-! ### Two spellings -/

theorem clears_effectOf (works : s.effectOf args verb = .ok e) : e.clears = decide (verb = .clear) := by
  have spelled : Verb.ofWord? (CommandLine.mk verb.name args).word = some verb := verb.ofWord?_name
  have result : s.effect ⟨verb.name, args⟩ "" = .ok e := by rw [effect_of_verb spelled, works]
  rw [(achieves_of_effect result).clears_eq, spelled]
  simp

theorem submit_clear (said : Says line .clear args) (s : Session) :
    (s.submit line).1 = ⟨[], [.clearPanel]⟩ ∧ (s.submit line).2.location = s.location := by
  obtain ⟨command, parsed, spelled, rfl⟩ := said
  have works : (s.entered line).effect command (trimmed line) = .ok (s.entered line).wipes := effect_of_verb spelled _ _
  have records := records_of_wipes parsed works
  rw [submit_of_ok parsed works] at records ⊢
  exact ⟨congrArg (Outcome.mk · [.clearPanel]) records, rfl⟩

theorem submit_withInput (sound : s.log.WellNumbered) (other : verb ≠ .history) (said : Says line verb args)
    (again : Says line' verb args) :
    (s.submit line').1 = (s.submit line).1.withInput line' ∧
      (s.submit line').2.location = (s.submit line).2.location := by
  cases result : s.effectOf args verb with
  | error err =>
    obtain ⟨outcome, place⟩ := submit_of_effectOf_error sound said other result
    obtain ⟨outcome', place'⟩ := submit_of_effectOf_error sound again other result
    rw [outcome, outcome', place, place']
    exact ⟨rfl, rfl⟩
  | ok e =>
    by_cases clear : verb = .clear
    · subst clear
      obtain ⟨outcome, place⟩ := submit_clear said s
      obtain ⟨outcome', place'⟩ := submit_clear again s
      rw [outcome, outcome', place, place']
      exact ⟨rfl, rfl⟩
    · have keeps : e.clears = false := by rw [clears_effectOf result, decide_eq_false clear]
      obtain ⟨outcome, place⟩ := submit_of_effectOf_ok sound said other result keeps
      obtain ⟨outcome', place'⟩ := submit_of_effectOf_ok sound again other result keeps
      rw [outcome, outcome', place, place']
      exact ⟨rfl, rfl⟩

/-- However a command is spelled, in every state that a session can be in it makes the same requests, leads to
the same place and leaves the same records, but for the line in the echo; and what it leaves in the history is
the line that was entered, trimmed. -/
theorem spelling_is_immaterial (tree : ContentTree) (config : Config) (actions : List Action) (other : verb ≠ .history)
    (ends : Trim args.toList) (one : Spells verb args line) (two : Spells verb args line') :
    let s := (start tree config).after actions
    (s.submit line').1 = (s.submit line).1.withInput line' ∧
    (s.submit line').2.location = (s.submit line).2.location ∧
    (s.submit line).2.history = s.history.add (trimmed line) ∧
    (s.submit line').2.history = s.history.add (trimmed line') := by
  intro s
  have sound : s.log.WellNumbered := wellNumbered_after tree config actions
  have said : Says line verb args := one.says ends
  have again : Says line' verb args := two.says ends
  obtain ⟨outcome, place⟩ := submit_withInput sound other said again
  refine ⟨outcome, place, ?_, ?_⟩
  · rw [history_submit, said.isBlankLine_eq_false, if_neg Bool.false_ne_true]
  · rw [history_submit, again.isBlankLine_eq_false, if_neg Bool.false_ne_true]

theorem spelling_is_immaterial_in_sample :
    let s := (start Sample.tree .default).after [.submit "skills", .submit "clear", .recallPrevious]
    let line := "\u3000" ++ "DIR" ++ " \t" ++ "../contact" ++ " "
    let line' := "" ++ "ls" ++ "\u2003" ++ "../contact" ++ ""
    Verb.ls ≠ .history ∧ Trim "../contact".toList ∧ Spells .ls "../contact" line ∧ Spells .ls "../contact" line' ∧
    (s.submit line).1.records.length = 2 ∧ (s.submit line').1 = (s.submit line).1.withInput line' := by
  intro s line line'
  have other : Verb.ls ≠ .history := by decide
  have ends : Trim "../contact".toList := .of_solid (any_isBlank_eq_false.mp (by decide))
  have one : Spells .ls "../contact" line := .parts (by decide) (by decide) (by decide) (by decide) (by decide)
  have two : Spells .ls "../contact" line' := .parts (by decide) (by decide) (by decide) (by decide) (by decide)
  obtain ⟨outcome, -⟩ := spelling_is_immaterial Sample.tree .default [.submit "skills", .submit "clear", .recallPrevious]
    other ends one two
  exact ⟨other, ends, one, two, by decide +kernel, outcome⟩

end Session

end PortfolioShell
