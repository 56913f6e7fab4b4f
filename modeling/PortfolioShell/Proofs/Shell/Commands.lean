import PortfolioShell.Proofs.Shell.Verbs
import PortfolioShell.Proofs.Text.Words

/-! # Commands that were put together

A line made of a verb and an argument says that verb with that argument; and what `cat` and `open` do with an
argument that leads to a file. -/

namespace PortfolioShell

theorem Verb.ofWord?_name (verb : Verb) : ofWord? verb.name = some verb := by
  cases verb <;> decide

theorem Verb.solid_name (verb : Verb) : ∀ c ∈ verb.name.toList, Text.isBlank c = false := by
  refine Text.any_isBlank_eq_false.mp ?_
  cases verb <;> decide

namespace Session

variable {s : Session} {input args : String} {verb : Verb}

theorem says_argument (verb : Verb) (given : args ≠ "") (ends : Text.Trim args.toList) :
    Says (verb.name ++ " " ++ args) verb args := by
  have filled : verb.name ≠ "" := by cases verb <;> decide
  have parsed := CommandLine.parse?_word_argument filled verb.solid_name given ends
  exact ⟨⟨verb.name, args⟩, by rw [CommandLine.parse?_trimmed, parsed], verb.ofWord?_name, rfl⟩

theorem clears_fileEffect (s : Session) (verb : Verb) (name : String) (content : Content) (link : Option String) :
    (s.fileEffect verb name content link).clears = false := by
  unfold fileEffect
  split <;> rfl

theorem location_fileEffect (s : Session) (verb : Verb) (name : String) (content : Content) (link : Option String) :
    (s.fileEffect verb name content link).location = s.location := by
  unfold fileEffect
  split <;> rfl

theorem plain_fileEffect (s : Session) (verb : Verb) (name : String) (content : Content) (link : Option String) :
    (s.fileEffect verb name content link).payloads.any Payload.isDiagnostic = false := by
  unfold fileEffect
  split <;> rfl

theorem readEffect_of_file (given : args ≠ "") {label : Label} {content : Content} {link : Option String}
    (found : s.tree.lookup (s.location.resolve args) = some (.file label content link)) (verb : Verb) :
    s.readEffect verb args = .ok (s.fileEffect verb label.name content link) := by
  rw [readEffect, if_neg given, found]

/-- Reading a file has the effect that belongs to the verb and the file, and the session stays where it is. -/
theorem submit_read (sound : s.log.WellNumbered) (reads : verb = .cat ∨ verb = .openLink) (said : Says input verb args)
    (given : args ≠ "") {label : Label} {content : Content} {link : Option String}
    (found : s.tree.lookup (s.location.resolve args) = some (.file label content link)) :
    (s.submit input).1 = ⟨OutputLog.numbered s.log.lastId
        (.echo s.prompt input :: (s.fileEffect verb label.name content link).payloads),
      (s.fileEffect verb label.name content link).requests⟩ ∧
    (s.submit input).2.location = s.location := by
  have works : s.effectOf args verb = .ok (s.fileEffect verb label.name content link) := by
    rcases reads with rfl | rfl
    · exact readEffect_of_file given found .cat
    · exact readEffect_of_file given found .openLink
  have other : verb ≠ .history := by
    rintro rfl
    simp at reads
  obtain ⟨outcome, place⟩ :=
    submit_of_effectOf_ok sound said other works (s.clears_fileEffect verb label.name content link)
  exact ⟨outcome, place.trans (s.location_fileEffect verb label.name content link)⟩

end Session

end PortfolioShell
