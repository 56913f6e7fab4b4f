import PortfolioShell.Text.Lines

/-! # Fields and lines

A text is cut at a separator into its fields, none of which holds the separator, and two texts with a separator
between them have the fields of both. The lines of a text are its fields at line feeds, less the carriage returns
before these; a text without a line feed is one line. -/

namespace PortfolioShell.Text

/-! ### Fields -/

/-- A separator at the start makes an empty first field; any other character is the first one of the first field. -/
theorem splitOn_cons_cases (sep c : Char) (rest : List Char) :
    c = sep ∧ (c :: rest).splitOn sep = [] :: rest.splitOn sep ∨
    c ≠ sep ∧ ∃ first others, rest.splitOn sep = first :: others ∧ (c :: rest).splitOn sep = (c :: first) :: others := by
  rw [List.splitOn_cons_eq_if_modifyHead]
  by_cases same : c = sep
  · exact .inl ⟨same, if_pos (beq_iff_eq.mpr same)⟩
  · obtain ⟨first, others, cut⟩ := List.exists_cons_of_ne_nil (List.splitOn_ne_nil sep rest)
    exact .inr ⟨same, first, others, cut, by rw [if_neg (mt beq_iff_eq.mp same), cut, List.modifyHead_cons]⟩

theorem not_mem_of_mem_splitOn {sep : Char} {field s : List Char} (member : field ∈ s.splitOn sep) : sep ∉ field := by
  induction s generalizing field with
  | nil =>
    rw [List.splitOn_nil, List.mem_singleton] at member
    rw [member]
    exact List.not_mem_nil
  | cons c rest ih =>
    obtain ⟨-, cut⟩ | ⟨other, first, others, before, cut⟩ := splitOn_cons_cases sep c rest
    · rcases List.mem_cons.mp (cut ▸ member) with rfl | later
      · exact List.not_mem_nil
      · exact ih later
    · rw [before] at ih
      rcases List.mem_cons.mp (cut ▸ member) with rfl | later
      · exact mt List.mem_cons.mp (not_or.mpr ⟨Ne.symm other, ih List.mem_cons_self⟩)
      · exact ih (List.mem_cons_of_mem first later)

theorem subset_of_mem_splitOn {sep : Char} {field s : List Char} (member : field ∈ s.splitOn sep) : field ⊆ s := by
  induction s generalizing field with
  | nil =>
    rw [List.splitOn_nil, List.mem_singleton] at member
    rw [member]
    exact List.Subset.refl []
  | cons c rest ih =>
    obtain ⟨-, cut⟩ | ⟨-, first, others, before, cut⟩ := splitOn_cons_cases sep c rest
    · rcases List.mem_cons.mp (cut ▸ member) with rfl | later
      · exact List.nil_subset _
      · exact List.subset_cons_of_subset c (ih later)
    · rw [before] at ih
      rcases List.mem_cons.mp (cut ▸ member) with rfl | later
      · exact List.cons_subset_cons c (ih List.mem_cons_self)
      · exact List.subset_cons_of_subset c (ih (List.mem_cons_of_mem first later))

theorem exists_first_field_of_prefix {sep : Char} {part s : List Char} (whole : sep ∉ part) (starts : part <+: s) :
    ∃ first others, s.splitOn sep = first :: others ∧ part <+: first := by
  induction s generalizing part with
  | nil => exact ⟨[], [], List.splitOn_nil sep, starts⟩
  | cons c rest ih =>
    rcases List.prefix_cons_iff.mp starts with rfl | ⟨more, rfl, follows⟩
    · obtain ⟨first, others, cut⟩ := List.exists_cons_of_ne_nil (List.splitOn_ne_nil sep (c :: rest))
      exact ⟨first, others, cut, List.nil_prefix⟩
    · obtain ⟨apart, whole⟩ := not_or.mp (mt List.mem_cons.mpr whole)
      obtain ⟨same, -⟩ | ⟨-, first, others, before, cut⟩ := splitOn_cons_cases sep c rest
      · exact absurd same.symm apart
      · obtain ⟨head, tail, split, begins⟩ := ih whole follows
        obtain ⟨rfl, -⟩ := List.cons.inj (before.symm.trans split)
        exact ⟨c :: first, others, cut, List.cons_prefix_cons.mpr ⟨rfl, begins⟩⟩

/-- A part of a text without the separator stands whole in one of the fields. -/
theorem exists_field_of_infix {sep : Char} {part s : List Char} (whole : sep ∉ part) (inside : part <:+: s) :
    ∃ field ∈ s.splitOn sep, part <:+: field := by
  induction s with
  | nil => exact ⟨[], by rw [List.splitOn_nil]; exact List.mem_singleton_self [], inside⟩
  | cons c rest ih =>
    rcases List.infix_cons_iff.mp inside with starts | inside
    · obtain ⟨first, others, cut, begins⟩ := exists_first_field_of_prefix whole starts
      exact ⟨first, cut ▸ List.mem_cons_self, begins.isInfix⟩
    · obtain ⟨field, listed, stands⟩ := ih inside
      obtain ⟨-, cut⟩ | ⟨-, first, others, before, cut⟩ := splitOn_cons_cases sep c rest
      · exact ⟨field, cut ▸ List.mem_cons_of_mem [] listed, stands⟩
      · rcases List.mem_cons.mp (before ▸ listed) with rfl | later
        · exact ⟨c :: field, cut ▸ List.mem_cons_self, stands.trans (List.suffix_cons c field).isInfix⟩
        · exact ⟨field, cut ▸ List.mem_cons_of_mem _ later, stands⟩

/-- The last field is not empty when the text ends with no separator. -/
theorem exists_last_field {sep last : Char} (other : last ≠ sep) (front : List Char) :
    ∃ fields field, (front ++ [last]).splitOn sep = fields ++ [field] ∧ field ≠ [] := by
  induction front with
  | nil => exact ⟨[], [last], List.splitOn_eq_singleton (by simpa using Ne.symm other), List.cons_ne_nil last []⟩
  | cons c rest ih =>
    obtain ⟨fields, field, split, filled⟩ := ih
    rw [List.cons_append]
    obtain ⟨-, cut⟩ | ⟨-, first, others, before, cut⟩ := splitOn_cons_cases sep c (rest ++ [last])
    · exact ⟨[] :: fields, field, by rw [cut, split, List.cons_append], filled⟩
    · rw [split] at before
      cases fields with
      | nil =>
        obtain ⟨rfl, rfl⟩ := List.cons.inj before
        exact ⟨[], c :: field, cut, List.cons_ne_nil c field⟩
      | cons head fields =>
        obtain ⟨rfl, rfl⟩ := List.cons.inj before
        exact ⟨(c :: head) :: fields, field, cut, filled⟩

/-- A text has one field at least, and its fields with the separator between them are the text. -/
theorem exists_fields (sep : Char) (s : List Char) :
    ∃ first others, s.splitOn sep = first :: others ∧ [sep].intercalate (first :: others) = s := by
  obtain ⟨first, others, cut⟩ := List.exists_cons_of_ne_nil (List.splitOn_ne_nil sep s)
  exact ⟨first, others, cut, cut ▸ List.intercalate_splitOn sep⟩

theorem not_mem_of_mem_split {sep : Char} {field s : String} (member : field ∈ split sep s) : sep ∉ field.toList := by
  obtain ⟨letters, listed, rfl⟩ := List.mem_map.mp member
  rw [String.toList_ofList]
  exact not_mem_of_mem_splitOn listed

theorem split_append (sep : Char) (a b : String) :
    split sep (a ++ String.singleton sep ++ b) = split sep a ++ split sep b := by
  have letters : (a ++ String.singleton sep ++ b).toList = a.toList ++ sep :: b.toList := by simp
  rw [split, letters, List.splitOn_append_cons_self, List.map_append, split, split]

/-! ### Lines -/

theorem lineList_of_oneLine {s : List Char} (filled : s ≠ []) (oneLine : '\n' ∉ s) : lineList s = [s] := by
  simp [lineList, List.splitOn_eq_singleton oneLine, filled]

/-- Without carriage returns, and with no line feed at the end, the lines are the fields at line feeds. -/
theorem lineList_eq_splitOn {front : List Char} {last : Char} (other : last ≠ '\n') (noReturn : '\r' ∉ front ++ [last]) :
    lineList (front ++ [last]) = (front ++ [last]).splitOn '\n' := by
  obtain ⟨fields, field, cut, filled⟩ := exists_last_field other front
  have kept : fields.map dropReturn = fields := by
    refine (List.map_congr_left fun line listed => ?_).trans (List.map_id fields)
    have free : '\r' ∉ line := fun inside =>
      noReturn (subset_of_mem_splitOn (cut ▸ List.mem_append_left [field] listed) inside)
    rw [dropReturn, if_neg fun ended => free (List.mem_of_getLast? ended), id]
  rw [lineList]
  simp [cut, kept, filled]

theorem lineList_ne_nil {s : List Char} (filled : s ≠ []) : lineList s ≠ [] := by
  intro none
  obtain ⟨ended, last⟩ := List.append_eq_nil_iff.mp none
  obtain ⟨first, others, cut, whole⟩ := exists_fields '\n' s
  cases others with
  | nil =>
    -- the only field is the text
    rw [List.intercalate_singleton] at whole
    simp [cut, whole, filled] at last
  | cons second others => simp [cut] at ended

theorem not_mem_of_mem_lineList {line s : List Char} (member : line ∈ lineList s) : '\n' ∉ line := by
  rcases List.mem_append.mp member with ended | last
  · obtain ⟨field, listed, rfl⟩ := List.mem_map.mp ended
    have whole : '\n' ∉ field := not_mem_of_mem_splitOn ((List.dropLast_sublist _).subset listed)
    rw [dropReturn]
    split
    · exact fun inside => whole ((List.dropLast_sublist field).subset inside)
    · exact whole
  · have listed : line ∈ (s.splitOn '\n').getLast? := Option.mem_toList.mp (List.mem_filter.mp last).1
    exact not_mem_of_mem_splitOn (List.mem_of_mem_getLast? listed)

end PortfolioShell.Text
