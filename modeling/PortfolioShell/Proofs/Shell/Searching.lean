import PortfolioShell.Proofs.Shell.Verbs
import PortfolioShell.Proofs.Text.Occurrences
import PortfolioShell.Tree.Sample

/-! # Searching the history

The lines that are found have the pattern in them once both are in lower case, the newest first and each as often as it
was entered. A line that has the pattern as it stands is found where the pattern is undisturbed in it; a capital sigma
can disturb it (`line_hidden_by_sigma`). The line that asks for the search is always the first one found, because a
blank stands before the pattern in it and nothing behind. -/

namespace PortfolioShell

open Text

namespace History

variable {h : History} {line pattern : String}

theorem occursIn_iff {part s : List Char} : occursIn part s = true ↔ part <:+: s := by
  induction s with
  | nil => simp [occursIn]
  | cons c rest ih => rw [occursIn, Bool.or_eq_true, ih, List.isPrefixOf_iff_prefix, List.infix_cons_iff]

theorem mem_search_iff :
    line ∈ h.search pattern ↔ line ∈ h.entries ∧ lowerChars pattern.toList <:+: lowerChars line.toList := by
  rw [search, List.mem_filter, List.mem_reverse, occursIn_iff]

theorem search_sublist (h : History) (pattern : String) : (h.search pattern).Sublist h.entries.reverse :=
  List.filter_sublist

theorem count_search (found : line ∈ h.search pattern) : (h.search pattern).count line = h.entries.count line := by
  calc (h.search pattern).count line = h.entries.reverse.count line := List.count_filter (List.mem_filter.mp found).2
    _ = h.entries.count line := List.count_reverse

theorem search_add (occurs : lowerChars pattern.toList <:+: lowerChars line.toList) :
    (h.add line).search pattern = line :: h.search pattern := by
  rw [search, entries_add, List.reverse_concat]
  exact List.filter_cons_of_pos (occursIn_iff.mpr occurs)

end History

namespace Session

variable {s : Session} {line pattern : String}

theorem history_occurs (said : Says line .history pattern) (given : pattern ≠ "") :
    lowerChars pattern.toList <:+: lowerChars (trimmed line).toList := by
  obtain ⟨command, parsed, -, rfl⟩ := said
  obtain ⟨front, split, blank⟩ := CommandLine.exists_front_of_parse? parsed given
  have undisturbed : Undisturbed front command.args.toList [] := undisturbed_of_cut blank (by simp)
  have occurs := lowerChars_infix undisturbed
  rwa [List.append_nil, ← split] at occurs

/-- A search shows the line that asks for it, and then what was found before. -/
theorem shows_search (sound : s.log.WellNumbered) (said : Says line .history pattern) (given : pattern ≠ "") :
    s.Shows line [.lines (trimmed line :: s.history.search pattern)] := by
  have first := History.search_add (h := s.history) (history_occurs said given)
  obtain ⟨command, parsed, spelled, rfl⟩ := said
  have works : (s.entered line).effect command (trimmed line) =
      .ok ((s.entered line).shows [.lines (trimmed line :: s.history.search command.args)]) := by
    rw [effect_of_verb spelled, effectOf, historyEffect, if_neg given, ← first]
    rfl
  rw [Shows, records_of_ok sound parsed works rfl, OutputLog.payloads_numbered]
  rfl

/-- A search finds lines of the history, the newest first and each as often as it was entered: those that have the
pattern in them when both are in lower case. A line that has the pattern as it stands is among them if the pattern is
undisturbed between what is before and behind it. In every state that a session can be in, the line that asks for a
search is shown first and then what is found among the earlier ones. -/
theorem search_finds (h : History) (pattern : String) :
    (h.search pattern).Sublist h.entries.reverse ∧
    (∀ line ∈ h.search pattern, (h.search pattern).count line = h.entries.count line) ∧
    (∀ line ∈ h.entries, line ∈ h.search pattern ↔
      ∃ before after, lowercase line = before ++ lowercase pattern ++ after) ∧
    (∀ before after : String, before ++ pattern ++ after ∈ h.entries →
      Undisturbed before.toList pattern.toList after.toList → before ++ pattern ++ after ∈ h.search pattern) ∧
    ∀ (tree : ContentTree) (config : Config) (actions : List Action) (line : String),
      Says line .history pattern → pattern ≠ "" →
      let s := (start tree config).after actions
      s.Shows line [.lines (trimmed line :: s.history.search pattern)] := by
  refine ⟨h.search_sublist pattern, fun line => History.count_search, fun line entered => ?_, ?_, ?_⟩
  · rw [History.mem_search_iff, and_iff_right entered]
    constructor
    · rintro ⟨before, after, split⟩
      refine ⟨String.ofList before, String.ofList after, ?_⟩
      rw [lowercase, lowercase, ← split, String.ofList_append, String.ofList_append]
    · rintro ⟨before, after, split⟩
      refine ⟨before.toList, after.toList, ?_⟩
      have letters := congrArg String.toList split
      simpa only [lowercase, String.toList_append, String.toList_ofList] using letters.symm
  · intro before after entered undisturbed
    have occurs := lowerChars_infix undisturbed
    rw [← List.append_assoc, ← String.toList_append, ← String.toList_append] at occurs
    exact History.mem_search_iff.mpr ⟨entered, occurs⟩
  · intro tree config actions line said given
    exact shows_search (wellNumbered_after tree config actions) said given

theorem search_finds_in_sample :
    let h : History := ⟨["cat ΣΑΣ", "ΑΣΑ", "cat ΣΑΣ"], none⟩
    let s := (start Sample.tree .default).after [.submit "ΑΣΑ", .submit "pwd", .recallPrevious]
    "cat Σ" ++ "ΑΣ" ++ "" ∈ h.entries ∧ Undisturbed "cat Σ".toList "ΑΣ".toList "".toList ∧
    "cat ΣΑΣ" ∈ h.search "ΑΣ" ∧ (h.search "ΑΣ").count "cat ΣΑΣ" = 2 ∧
    Says " History \tΑΣ " .history "ΑΣ" ∧ "ΑΣ" ≠ "" ∧ s.Shows " History \tΑΣ " [.lines ["History \tΑΣ"]] := by
  intro h s
  obtain ⟨-, often, -, literal, shows⟩ := search_finds h "ΑΣ"
  have entered : "cat Σ" ++ "ΑΣ" ++ "" ∈ h.entries := by decide
  have undisturbed : Undisturbed "cat Σ".toList "ΑΣ".toList "".toList :=
    lowerBetween_eq_lowerChars_iff.mp (by decide +kernel)
  have found : "cat ΣΑΣ" ∈ h.search "ΑΣ" := literal "cat Σ" "" entered undisturbed
  have said : Says " History \tΑΣ " .history "ΑΣ" := ⟨⟨"History", "ΑΣ"⟩, by decide, by decide, rfl⟩
  have given : "ΑΣ" ≠ "" := by decide
  have before : s.history.search "ΑΣ" = [] := by decide +kernel
  have shown : s.Shows " History \tΑΣ " [.lines (trimmed " History \tΑΣ " :: s.history.search "ΑΣ")] :=
    shows Sample.tree .default [.submit "ΑΣΑ", .submit "pwd", .recallPrevious] " History \tΑΣ " said given
  rw [before] at shown
  exact ⟨entered, undisturbed, found, often _ found, said, given, shown⟩

end Session

/-- The sigma is final in the pattern and not in the line. -/
theorem History.line_hidden_by_sigma :
    "" ++ "ΑΣ" ++ "Α" ∈ (History.empty.add "ΑΣΑ").entries ∧ "ΑΣΑ" ∉ (History.empty.add "ΑΣΑ").search "ΑΣ" := by
  decide +kernel

end PortfolioShell
