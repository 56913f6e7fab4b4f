import Mathlib.Data.List.Chain
import PortfolioShell.Proofs.Text.Fields
import PortfolioShell.Text.Layout

/-! # Filled lines

What filling makes of the fields between the spaces of a line, some of which are empty where several spaces follow one
another. A step of the filling begins a line, puts a field behind the line so far or ends that line, and the statements
are inductions along these steps. The lines hold the words of the text in their order (`words_wrapLine`), and each of
them is neat: it is no wider than allowed unless it is one word, and no space starts it (`neat_of_mem_wrapLine`). A line
ends only where the next field would make it too wide (`isChain_wrapLine`), and a neat line is left as it is
(`wrapLine_of_neat`). `wrap_fills_lines` puts this together for texts of several lines. -/

namespace PortfolioShell.Text

variable {width : Nat} {current word line : List Char} {fields : List (List Char)}

theorem fill_ne_nil (width : Nat) (current : List Char) (fields : List (List Char)) : fill width current fields ≠ [] := by
  fun_induction fill width current fields with
  | case1 current => exact List.cons_ne_nil current []
  | case2 word rest ih => exact ih
  | case3 current word rest filled fits ih => exact ih
  | case4 current word rest filled breaks ih => exact List.cons_ne_nil current _

/-! ### What is in the lines -/

section Gather

/-! Whatever is gathered from a text part by part, the parts being parted by a space, is gathered from the lines as
well. -/

variable {α : Type} {gather : List Char → List α} (nothing : gather [] = [])
  (parts : ∀ a b, gather (a ++ ' ' :: b) = gather a ++ gather b)

include parts in
theorem gather_intercalate {pieces : List (List Char)} (filled : pieces ≠ []) :
    gather ([' '].intercalate pieces) = pieces.flatMap gather := by
  induction pieces with
  | nil => exact absurd rfl filled
  | cons piece rest ih =>
    cases rest with
    | nil => simp
    | cons next rest =>
      rw [List.flatMap_cons, ← ih (List.cons_ne_nil next rest), List.intercalate_cons_cons, List.append_assoc,
        List.singleton_append, parts]

include nothing parts

theorem flatMap_fill (width : Nat) (current : List Char) (fields : List (List Char)) :
    (fill width current fields).flatMap gather = gather current ++ fields.flatMap gather := by
  fun_induction fill width current fields with
  | case1 current => simp
  | case2 word rest ih => rw [ih, nothing, List.flatMap_cons, List.nil_append]
  | case3 current word rest filled fits ih => rw [ih, parts, List.flatMap_cons, List.append_assoc]
  | case4 current word rest filled breaks ih => rw [List.flatMap_cons, ih, List.flatMap_cons]

theorem flatMap_wrapLine (width : Nat) (s : List Char) : (wrapLine width s).flatMap gather = gather s := by
  rw [wrapLine, flatMap_fill nothing parts, nothing, List.nil_append,
    ← gather_intercalate parts (List.splitOn_ne_nil ' ' s), List.intercalate_splitOn]

end Gather

def wordList (s : List Char) : List (List Char) := (s.splitOn ' ').filter (· ≠ [])

theorem wordList_append (a b : List Char) : wordList (a ++ ' ' :: b) = wordList a ++ wordList b := by
  rw [wordList, List.splitOn_append_cons_self, List.filter_append, wordList, wordList]

theorem filter_parts {keep : Char → Bool} (drops : keep ' ' = false) (a b : List Char) :
    (a ++ ' ' :: b).filter keep = a.filter keep ++ b.filter keep := by
  rw [List.filter_append, List.filter_cons_of_neg (Bool.eq_false_iff.mp drops)]

theorem words_wrapLine (width : Nat) (s : List Char) : (wrapLine width s).flatMap wordList = wordList s :=
  flatMap_wrapLine rfl wordList_append width s

theorem filter_wrapLine {keep : Char → Bool} (drops : keep ' ' = false) (width : Nat) (s : List Char) :
    (wrapLine width s).flatMap (List.filter keep) = s.filter keep :=
  flatMap_wrapLine List.filter_nil (filter_parts drops) width s

theorem not_mem_of_mem_wrapLine {c : Char} {s : List Char} (other : c ≠ ' ') (free : c ∉ s)
    (member : line ∈ wrapLine width s) : c ∉ line := by
  have kept : (wrapLine width s).flatMap (List.filter (· == c)) = s.filter (· == c) :=
    filter_wrapLine (by simpa using other.symm) width s
  have none : s.filter (· == c) = [] := List.filter_eq_nil_iff.mpr fun d inside same => free (eq_of_beq same ▸ inside)
  rw [none, List.flatMap_eq_nil_iff] at kept
  exact fun inside => List.filter_eq_nil_iff.mp (kept line member) c inside (beq_self_eq_true c)

/-! ### Neat lines -/

/-- The line is not too wide, unless it is one word, and no space starts it. -/
structure Neat (width : Nat) (line : List Char) : Prop where
  fits : line.length ≤ width ∨ ' ' ∉ line
  starts : ∀ c ∈ line.head?, c ≠ ' '

theorem Neat.of_word (whole : ' ' ∉ word) : Neat width word where
  fits := .inr whole
  starts c h := by
    rintro rfl
    exact whole (List.mem_of_mem_head? h)

theorem Neat.extend (neat : Neat width current) (filled : current ≠ [])
    (fits : current.length + 1 + word.length ≤ width) : Neat width (current ++ ' ' :: word) where
  fits := .inl (by simp only [List.length_append, List.length_cons]; omega)
  starts c h := by
    rw [List.head?_append_of_ne_nil _ filled] at h
    exact neat.starts c h

theorem neat_of_mem_fill (neat : Neat width current) (whole : ∀ word ∈ fields, ' ' ∉ word) :
    ∀ line ∈ fill width current fields, Neat width line := by
  fun_induction fill width current fields with
  | case1 current => exact List.forall_mem_singleton.mpr neat
  | case2 word rest ih =>
    obtain ⟨first, others⟩ := List.forall_mem_cons.mp whole
    exact ih (.of_word first) others
  | case3 current word rest filled fits ih => exact ih (neat.extend filled fits) (List.forall_mem_cons.mp whole).2
  | case4 current word rest filled breaks ih =>
    obtain ⟨first, others⟩ := List.forall_mem_cons.mp whole
    exact List.forall_mem_cons.mpr ⟨neat, ih (.of_word first) others⟩

theorem neat_of_mem_wrapLine {s : List Char} (member : line ∈ wrapLine width s) : Neat width line :=
  neat_of_mem_fill (.of_word List.not_mem_nil) (fun _ listed => not_mem_of_mem_splitOn listed) line member

/-- The line so far and its next field stand for one field. -/
theorem intercalate_joined (current field : List Char) (rest : List (List Char)) :
    [' '].intercalate (current :: field :: rest) = [' '].intercalate ((current ++ ' ' :: field) :: rest) := by
  cases rest <;> simp [List.intercalate_cons_cons]

theorem fill_of_fits (filled : current ≠ []) (fits : ([' '].intercalate (current :: fields)).length ≤ width) :
    fill width current fields = [[' '].intercalate (current :: fields)] := by
  induction fields generalizing current with
  | nil => simp [fill]
  | cons word rest ih =>
    have start : (current ++ ' ' :: word).length ≤ ([' '].intercalate ((current ++ ' ' :: word) :: rest)).length := by
      cases rest <;> simp [List.intercalate_cons_cons]
    rw [intercalate_joined] at fits ⊢
    have room : current.length + 1 + word.length ≤ width := by
      simp only [List.length_append, List.length_cons] at start
      omega
    rw [fill, if_neg filled, if_pos room]
    exact ih (by simp) fits

theorem wrapLine_of_splitOn {s : List Char} (cut : s.splitOn ' ' = word :: fields) :
    wrapLine width s = fill width word fields := by
  rw [wrapLine, cut, fill, if_pos rfl]

theorem wrapLine_of_neat (neat : Neat width line) : wrapLine width line = [line] := by
  rcases neat.fits with fits | whole
  · obtain ⟨first, others, cut, joined⟩ := exists_fields ' ' line
    rw [wrapLine_of_splitOn cut]
    by_cases empty : first = []
    · -- an empty first word is the whole line, as no space starts the line
      cases others with
      | nil =>
        rw [← joined, empty]
        rfl
      | cons second others =>
        have space : ' ' ∈ line.head? := by
          rw [← joined, empty, List.intercalate_cons_cons]
          rfl
        exact absurd rfl (neat.starts ' ' space)
    · rw [← joined] at fits ⊢
      exact fill_of_fits empty fits
  · rw [wrapLine_of_splitOn (List.splitOn_eq_singleton whole), fill]

/-! ### Where lines end -/

/-- The first word of the lower line would make the upper one too wide. -/
def Overflows (width : Nat) (upper lower : List Char) : Prop :=
  ∀ first ∈ (lower.splitOn ' ').head?, width < upper.length + 1 + first.length

theorem head?_splitOn_of_mem_head?_fill (filled : current ≠ []) (first : line ∈ (fill width current fields).head?) :
    (line.splitOn ' ').head? = (current.splitOn ' ').head? := by
  fun_induction fill width current fields with
  | case1 current =>
    obtain rfl := Option.some.inj first
    rfl
  | case2 word rest ih => exact absurd rfl filled
  | case3 current word rest filled fits ih =>
    rw [ih (by simp) first, List.splitOn_append_cons_self, List.head?_append_of_ne_nil _ (List.splitOn_ne_nil ' ' current)]
  | case4 current word rest filled breaks ih =>
    obtain rfl := Option.some.inj first
    rfl

theorem isChain_fill (whole : ∀ word ∈ fields, ' ' ∉ word) :
    (fill width current fields).IsChain (Overflows width) := by
  fun_induction fill width current fields with
  | case1 current => exact .singleton current
  | case2 word rest ih => exact ih (List.forall_mem_cons.mp whole).2
  | case3 current word rest filled fits ih => exact ih (List.forall_mem_cons.mp whole).2
  | case4 current word rest filled breaks ih =>
    obtain ⟨unbroken, others⟩ := List.forall_mem_cons.mp whole
    refine List.isChain_cons.mpr ⟨fun lower next first start => ?_, ih others⟩
    by_cases empty : word = []
    · -- where not even an empty word has room, no other one has
      rw [empty, List.length_nil] at breaks
      omega
    · have same := head?_splitOn_of_mem_head?_fill empty next
      rw [List.splitOn_eq_singleton unbroken] at same
      obtain rfl : word = first := Option.some.inj (same.symm.trans start)
      omega

theorem isChain_wrapLine (width : Nat) (s : List Char) : (wrapLine width s).IsChain (Overflows width) :=
  isChain_fill fun _ listed => not_mem_of_mem_splitOn listed

/-! ### Texts of several lines -/

theorem wrapList_of_oneLine {s : List Char} (oneLine : '\n' ∉ s) : wrapList width s = wrapLine width s := by
  rw [wrapList]
  split
  · rename_i empty
    rw [empty]
    rfl
  · rename_i filled
    rw [lineList_of_oneLine filled oneLine, List.flatMap_singleton]

theorem wrap_of_oneLine {text : String} (oneLine : '\n' ∉ text.toList) :
    wrap width text = (wrapLine width text.toList).map String.ofList := by
  rw [wrap, wrapList_of_oneLine oneLine]

theorem wrap_eq_flatMap {text : String} (filled : text ≠ "") (width : Nat) :
    wrap width text = (lines text).flatMap (wrap width) := by
  have letters : text.toList ≠ [] := by simpa using filled
  rw [wrap, wrapList, if_neg letters, lines, List.map_flatMap, List.flatMap_map]
  refine List.flatMap_congr fun line listed => ?_
  have oneLine : '\n' ∉ (String.ofList line).toList := by
    rw [String.toList_ofList]
    exact not_mem_of_mem_lineList listed
  rw [wrap_of_oneLine oneLine, String.toList_ofList]

/-- The words of a text, which are its fields between spaces that are not empty. -/
def words (s : String) : List String := (split ' ' s).filter (· ≠ "")

theorem words_eq (s : String) : words s = (wordList s.toList).map String.ofList := by
  rw [words, split, List.filter_map, wordList]
  congr 2
  funext field
  simp

theorem flatMap_words_wrap {line : String} (oneLine : '\n' ∉ line.toList) (width : Nat) :
    (wrap width line).flatMap words = words line := by
  have letters : words ∘ String.ofList = fun piece => (wordList piece).map String.ofList := by
    funext piece
    rw [Function.comp_apply, words_eq, String.toList_ofList]
  rw [wrap_of_oneLine oneLine, List.flatMap_map, ← Function.comp_def, letters, ← List.map_flatMap, words_wrapLine, words_eq]

theorem not_mem_of_mem_lines {line text : String} (member : line ∈ lines text) : '\n' ∉ line.toList := by
  obtain ⟨letters, listed, rfl⟩ := List.mem_map.mp member
  rw [String.toList_ofList]
  exact not_mem_of_mem_lineList listed

theorem neat_of_mem_wrap {text line : String} (filled : text ≠ "") (member : line ∈ wrap width text) :
    Neat width line.toList ∧ '\n' ∉ line.toList := by
  rw [wrap_eq_flatMap filled] at member
  obtain ⟨whole, listed, part⟩ := List.mem_flatMap.mp member
  have oneLine : '\n' ∉ whole.toList := not_mem_of_mem_lines listed
  rw [wrap_of_oneLine oneLine] at part
  obtain ⟨letters, inside, rfl⟩ := List.mem_map.mp part
  rw [String.toList_ofList]
  exact ⟨neat_of_mem_wrapLine inside, not_mem_of_mem_wrapLine (by decide) oneLine inside⟩

/-- A text that is not empty is wrapped line by line, to one line at least. No line is wider than allowed unless it is
one word, the words are those of the text in their order, and of two lines that come of one line of the text the upper
one has no room for the first word of the lower. A line that wrapping has made is left as it is. -/
theorem wrap_fills_lines (width : Nat) {text : String} (filled : text ≠ "") :
    wrap width text ≠ [] ∧
    (∀ line ∈ wrap width text, line.length ≤ width ∨ ' ' ∉ line.toList) ∧
    (wrap width text).flatMap words = (lines text).flatMap words ∧
    (∀ line ∈ lines text, (wrap width line).IsChain fun upper lower =>
      ∀ first ∈ (split ' ' lower).head?, width < upper.length + 1 + first.length) ∧
    wrap width text = (lines text).flatMap (wrap width) ∧
    ∀ line ∈ wrap width text, wrap width line = [line] := by
  refine ⟨?_, ?_, ?_, ?_, wrap_eq_flatMap filled width, ?_⟩
  · have letters : text.toList ≠ [] := by simpa using filled
    obtain ⟨first, others, split⟩ := List.exists_cons_of_ne_nil (lineList_ne_nil letters)
    simp [wrap, wrapList, letters, split, wrapLine, fill_ne_nil]
  · exact fun line member => (neat_of_mem_wrap filled member).1.fits
  · rw [wrap_eq_flatMap filled, List.flatMap_assoc]
    exact List.flatMap_congr fun line listed => flatMap_words_wrap (not_mem_of_mem_lines listed) width
  · intro line listed
    rw [wrap_of_oneLine (not_mem_of_mem_lines listed), List.isChain_map]
    refine (isChain_wrapLine width line.toList).imp fun upper lower overflows first start => ?_
    rw [split, String.toList_ofList, List.head?_map] at start
    obtain ⟨letters, begins, rfl⟩ := Option.map_eq_some_iff.mp start
    simpa only [String.length_ofList] using overflows letters begins
  · intro line member
    obtain ⟨neat, oneLine⟩ := neat_of_mem_wrap filled member
    rw [wrap_of_oneLine oneLine, wrapLine_of_neat neat, List.map_singleton, String.ofList_toList]

theorem wrap_fills_sample_lines :
    "to  be,\r\n or notwithstanding" ≠ "" ∧
    wrap 6 "to  be,\r\n or notwithstanding" = ["to ", "be,", "or", "notwithstanding"] ∧
    ["to ", "be,", "or", "notwithstanding"].flatMap words = ["to  be,", " or notwithstanding"].flatMap words ∧
    ("notwithstanding".length ≤ 6 ∨ ' ' ∉ "notwithstanding".toList) ∧ wrap 6 "to " = ["to "] := by
  have filled : "to  be,\r\n or notwithstanding" ≠ "" := by decide
  have value : wrap 6 "to  be,\r\n or notwithstanding" = ["to ", "be,", "or", "notwithstanding"] := by decide
  have cut : lines "to  be,\r\n or notwithstanding" = ["to  be,", " or notwithstanding"] := by decide
  obtain ⟨-, fits, same, -, -, again⟩ := wrap_fills_lines 6 filled
  rw [value] at fits same again
  rw [cut] at same
  exact ⟨filled, value, same, fits "notwithstanding" (by decide), again "to " (by decide)⟩

end PortfolioShell.Text
