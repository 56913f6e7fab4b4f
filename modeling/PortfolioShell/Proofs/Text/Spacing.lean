import PortfolioShell.Proofs.Text.Filling

/-! # Spaces in wrapped text

What is left of a text when it is wrapped and its lines are joined with spaces again. An empty field that comes while
nothing is on the line yet leaves no trace there, because the line so far is as empty as before: so a space at the start
is lost, and so is one of several spaces behind a line that has no room for the first of them. Nothing else is lost
(`wrap_gives_back_iff`). -/

namespace PortfolioShell.Text

variable {width : Nat} {current field line : List Char} {fields : List (List Char)}

theorem intercalate_append {pieces more : List (List Char)} (filled : pieces ≠ []) (given : more ≠ []) :
    [' '].intercalate (pieces ++ more) = [' '].intercalate pieces ++ ' ' :: [' '].intercalate more := by
  induction pieces with
  | nil => exact absurd rfl filled
  | cons piece rest ih =>
    cases rest with
    | nil => simp [List.intercalate_cons_of_ne_nil given]
    | cons next rest =>
      rw [List.cons_append, List.intercalate_cons_of_ne_nil (by simp), ih (List.cons_ne_nil next rest)]
      simp [List.intercalate_cons_cons]

theorem intercalate_fill_sublist (width : Nat) (current : List Char) (fields : List (List Char)) :
    ([' '].intercalate (fill width current fields)).Sublist ([' '].intercalate (current :: fields)) := by
  fun_induction fill width current fields with
  | case1 current => exact List.Sublist.refl _
  | case2 field rest ih =>
    rw [List.intercalate_cons_cons, List.nil_append]
    exact ih.trans (List.sublist_append_right [' '] _)
  | case3 current field rest filled fits ih => rwa [intercalate_joined]
  | case4 current field rest filled breaks ih =>
    rw [List.intercalate_cons_of_ne_nil (fill_ne_nil width field rest), List.intercalate_cons_cons]
    exact ih.append_left (current ++ [' '])

/-- An empty field that begins a line leaves nothing there when others follow. -/
theorem intercalate_fill_nothing_ne (more : fields ≠ []) :
    [' '].intercalate (fill width [] fields) ≠ [' '].intercalate ([] :: fields) := by
  obtain ⟨field, rest, rfl⟩ := List.exists_cons_of_ne_nil more
  intro same
  have kept : ([' '].intercalate (fill width field rest)).length ≤ ([' '].intercalate (field :: rest)).length :=
    (intercalate_fill_sublist width field rest).length_le
  have lengths := congrArg List.length same
  rw [fill, if_pos rfl, List.intercalate_cons_cons] at lengths
  simp only [List.nil_append, List.length_append, List.length_singleton] at lengths
  omega

/-- Where a field is empty and others follow, the line so far takes the space before it. -/
def Roomy (width : Nat) (current : List Char) (fields : List (List Char)) : Prop :=
  ∀ front back, fields = front ++ [] :: back → back ≠ [] →
    ∀ line ∈ (fill width current front).getLast?, line.length < width

theorem roomy_cons_iff {rest : List (List Char)} : Roomy width current (field :: rest) ↔
    (field = [] → rest ≠ [] → current.length < width) ∧
    ∀ front back, rest = front ++ [] :: back → back ≠ [] →
      ∀ line ∈ (fill width current (field :: front)).getLast?, line.length < width := by
  constructor
  · intro roomy
    refine ⟨?_, fun front back split => roomy (field :: front) back (by rw [split, List.cons_append])⟩
    rintro rfl more
    exact roomy [] rest rfl more current rfl
  · rintro ⟨here, later⟩ front back split more line last
    cases front with
    | nil =>
      obtain ⟨rfl, rfl⟩ := List.cons.inj split
      obtain rfl : current = line := Option.some.inj last
      exact here rfl more
    | cons first front =>
      obtain ⟨rfl, rfl⟩ := List.cons.inj split
      exact later front back rfl more line last

/-- The joined lines are the joined fields as long as no empty field begins a line that goes on. -/
theorem intercalate_fill_eq_iff (filled : current ≠ []) :
    [' '].intercalate (fill width current fields) = [' '].intercalate (current :: fields) ↔
      Roomy width current fields := by
  -- every field extends the line so far or begins the next one, and only one that begins a line can lose a space
  induction fields generalizing current with
  | nil => simp [fill, Roomy]
  | cons field rest ih =>
    rw [roomy_cons_iff]
    by_cases fits : current.length + 1 + field.length ≤ width
    · have step : ∀ others, fill width current (field :: others) = fill width (current ++ ' ' :: field) others := by
        intro others
        rw [fill, if_neg filled, if_pos fits]
      have room : field = [] → rest ≠ [] → current.length < width := fun _ _ => by omega
      simp only [step, intercalate_joined, and_iff_right room]
      exact ih (by simp)
    · have step : ∀ others, fill width current (field :: others) = current :: fill width field others := by
        intro others
        rw [fill, if_neg filled, if_neg fits]
      have ends : ∀ others, (current :: fill width field others).getLast? = (fill width field others).getLast? :=
        fun others => List.getLast?_cons_of_ne_nil (fill_ne_nil width field others)
      simp only [step, ends, List.intercalate_cons_of_ne_nil (fill_ne_nil width field rest),
        List.intercalate_cons_cons, List.append_cancel_left_eq]
      by_cases empty : field = []
      · subst empty
        by_cases more : rest = []
        · simp [more, fill]
        · have full : ¬ current.length < width := by
            rw [List.length_nil] at fits
            omega
          simp [intercalate_fill_nothing_ne more, more, full]
      · simp only [empty, false_implies, true_and]
        exact ih empty

/-! ### Texts -/

/-- The fields of a text are empty, with others behind them, where two spaces follow one another. -/
theorem roomy_iff {s : List Char} (cut : s.splitOn ' ' = field :: fields) : Roomy width field fields ↔
    ∀ front back, s = front ++ ' ' :: ' ' :: back → ∀ line ∈ (wrapLine width front).getLast?, line.length < width := by
  have whole : [' '].intercalate (field :: fields) = s := cut ▸ List.intercalate_splitOn ' '
  constructor
  · intro roomy front back split
    obtain ⟨first, others, start⟩ := List.exists_cons_of_ne_nil (List.splitOn_ne_nil ' ' front)
    have parts : field :: fields = first :: (others ++ [] :: back.splitOn ' ') := by
      rw [← cut, split, List.splitOn_append_cons_self, start, ← List.nil_append (' ' :: back),
        List.splitOn_append_cons_self, List.splitOn_nil]
      rfl
    obtain ⟨rfl, rfl⟩ := List.cons.inj parts
    rw [wrapLine_of_splitOn start]
    exact roomy others (back.splitOn ' ') rfl (List.splitOn_ne_nil ' ' back)
  · intro apart front back split more
    have unbroken : ∀ piece ∈ field :: front, ' ' ∉ piece := by
      intro piece member
      have listed : piece ∈ s.splitOn ' ' := by
        rw [cut, split, ← List.cons_append]
        exact List.mem_append_left _ member
      exact not_mem_of_mem_splitOn listed
    have start : ([' '].intercalate (field :: front)).splitOn ' ' = field :: front :=
      List.splitOn_intercalate ' ' unbroken (List.cons_ne_nil field front)
    rw [← wrapLine_of_splitOn start]
    refine apart ([' '].intercalate (field :: front)) ([' '].intercalate back) ?_
    rw [← whole, split, ← List.cons_append, intercalate_append (List.cons_ne_nil field front) (by simp),
      List.intercalate_cons_of_ne_nil more]
    rfl

theorem head?_intercalate (filled : field ≠ []) (fields : List (List Char)) :
    ([' '].intercalate (field :: fields)).head? = field.head? := by
  cases fields with
  | nil => rw [List.intercalate_singleton]
  | cons next rest =>
    rw [List.intercalate_cons_cons, List.append_assoc, List.head?_append_of_ne_nil _ filled]

theorem intercalate_wrapLine_eq_iff {s : List Char} (filled : s ≠ []) : [' '].intercalate (wrapLine width s) = s ↔
    (∀ c ∈ s.head?, c ≠ ' ') ∧
    ∀ front back, s = front ++ ' ' :: ' ' :: back → ∀ line ∈ (wrapLine width front).getLast?, line.length < width := by
  obtain ⟨field, fields, cut, whole⟩ := exists_fields ' ' s
  rw [← roomy_iff cut, wrapLine_of_splitOn cut]
  by_cases empty : field = []
  · subst empty
    have more : fields ≠ [] := by
      rintro rfl
      exact filled (whole.symm.trans List.intercalate_singleton)
    have space : ' ' ∈ s.head? := by
      rw [← whole, List.intercalate_cons_of_ne_nil more]
      rfl
    have lost : [' '].intercalate (fill width [] fields) ≠ s := whole ▸ intercalate_fill_nothing_ne more
    exact ⟨fun same => absurd same lost, fun ⟨starts, _⟩ => absurd rfl (starts ' ' space)⟩
  · have starts : ∀ c ∈ s.head?, c ≠ ' ' := by
      rintro c first rfl
      rw [← whole, head?_intercalate empty] at first
      have listed : field ∈ s.splitOn ' ' := cut ▸ List.mem_cons_self
      exact not_mem_of_mem_splitOn listed (List.mem_of_mem_head? first)
    rw [and_iff_right starts, ← intercalate_fill_eq_iff empty, whole]

theorem intercalate_wrapLine_sublist (width : Nat) (s : List Char) :
    ([' '].intercalate (wrapLine width s)).Sublist s := by
  obtain ⟨field, fields, cut, whole⟩ := exists_fields ' ' s
  rw [wrapLine_of_splitOn cut]
  exact whole ▸ intercalate_fill_sublist width field fields

theorem filter_intercalate_wrapLine {keep : Char → Bool} (drops : keep ' ' = false) (width : Nat) (s : List Char) :
    ([' '].intercalate (wrapLine width s)).filter keep = s.filter keep := by
  have lines : wrapLine width s ≠ [] := fill_ne_nil width [] (s.splitOn ' ')
  rw [gather_intercalate (filter_parts drops) lines, filter_wrapLine drops]

theorem toList_intercalate_wrap {text : String} (oneLine : '\n' ∉ text.toList) :
    (" ".intercalate (wrap width text)).toList = [' '].intercalate (wrapLine width text.toList) := by
  have space : " ".toList = [' '] := rfl
  rw [String.toList_intercalate, wrap_of_oneLine oneLine, List.map_map, space]
  simp

/-- Joined with spaces, the lines of a wrapped text without line feeds are the text less some spaces. They are the whole
text exactly when no space starts it and, wherever two spaces follow one another in it, the last of the lines before
them has room for the first of the two. -/
theorem wrap_gives_back_iff (width : Nat) {text : String} (filled : text ≠ "") (oneLine : '\n' ∉ text.toList) :
    let joined := " ".intercalate (wrap width text)
    joined.toList.Sublist text.toList ∧ joined.toList.filter (· ≠ ' ') = text.toList.filter (· ≠ ' ') ∧
    (joined = text ↔ (∀ c ∈ text.toList.head?, c ≠ ' ') ∧
      ∀ front back, text = front ++ "  " ++ back → ∀ line ∈ (wrap width front).getLast?, line.length < width) := by
  intro joined
  have letters : joined.toList = [' '].intercalate (wrapLine width text.toList) := toList_intercalate_wrap oneLine
  refine ⟨?_, ?_, ?_⟩
  · exact letters ▸ intercalate_wrapLine_sublist width text.toList
  · rw [letters]
    exact filter_intercalate_wrapLine rfl width text.toList
  · have given : text.toList ≠ [] := by simpa using filled
    rw [← String.toList_inj, letters, intercalate_wrapLine_eq_iff given]
    refine and_congr_right fun _ => ⟨fun room front back split line last => ?_, fun room front back split line last => ?_⟩
    · have whole : text.toList = front.toList ++ ' ' :: ' ' :: back.toList := by simp [split]
      have before : '\n' ∉ front.toList := fun inside => oneLine (whole ▸ List.mem_append_left _ inside)
      rw [wrap_of_oneLine before, List.getLast?_map] at last
      obtain ⟨upper, ends, rfl⟩ := Option.map_eq_some_iff.mp last
      rw [String.length_ofList]
      exact room front.toList back.toList whole upper ends
    · have before : '\n' ∉ (String.ofList front).toList := by
        rw [String.toList_ofList]
        exact fun inside => oneLine (split ▸ List.mem_append_left _ inside)
      have whole : text = String.ofList front ++ "  " ++ String.ofList back := by
        simp [← String.toList_inj, split]
      have shorter := room (String.ofList front) (String.ofList back) whole (String.ofList line)
      rw [wrap_of_oneLine before, String.toList_ofList, List.getLast?_map, Option.mem_def.mp last] at shorter
      simpa using shorter rfl

/-- A line of four columns takes the first of the two spaces, and a line of one column does not. -/
theorem wrap_gives_back_sample :
    "a  bc d" ≠ "" ∧ '\n' ∉ "a  bc d".toList ∧ wrap 4 "a  bc d" = ["a ", "bc d"] ∧ "a".length < 4 ∧
      wrap 1 "a  bc d" = ["a", "bc", "d"] ∧ " ".intercalate (wrap 1 "a  bc d") ≠ "a  bc d" := by
  have filled : "a  bc d" ≠ "" := by decide
  have oneLine : '\n' ∉ "a  bc d".toList := by decide
  obtain ⟨-, -, wide⟩ := wrap_gives_back_iff 4 filled oneLine
  obtain ⟨-, -, narrow⟩ := wrap_gives_back_iff 1 filled oneLine
  have kept : " ".intercalate (wrap 4 "a  bc d") = "a  bc d" := by decide
  have room : "a".length < 4 := (wide.mp kept).2 "a" "bc d" rfl "a" (by decide)
  have full : ¬ "a".length < 1 := by decide
  exact ⟨filled, oneLine, by decide, room, by decide, fun same => full ((narrow.mp same).2 "a" "bc d" rfl "a" (by decide))⟩

theorem leading_space_is_lost :
    " a" ≠ "" ∧ '\n' ∉ " a".toList ∧ wrap 10 " a" = ["a"] ∧ " ".intercalate (wrap 10 " a") ≠ " a" := by
  decide

end PortfolioShell.Text
