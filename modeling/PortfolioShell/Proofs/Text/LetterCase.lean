import PortfolioShell.Proofs.Text.Words
import PortfolioShell.Text.Lowercase

/-! # Letter case

What lower-casing leaves alone. Blanks stay blanks and nothing else becomes one, so a word stays a word. The
case of ASCII letters makes no difference to it, not even by way of the letters around a sigma: texts that are
equal but for the case of ASCII letters have the same lower case. The converse holds of ASCII texts only. -/

namespace PortfolioShell.Text

/-! ### Blanks -/

/-- What holds of the listed code points holds of every blank. -/
theorem of_isBlank {P : Char → Prop} {c : Char} (blank : isBlank c = true)
    (listed : ∀ n ∈ blankRanges.flatMap fun range => List.range' range.1 (range.2 + 1 - range.1), P (Char.ofNat n)) : P c := by
  obtain ⟨range, member, inside⟩ := List.any_eq_true.mp blank
  obtain ⟨first, last⟩ : range.1 ≤ c.toNat ∧ c.toNat ≤ range.2 := by simpa using inside
  have code := listed c.toNat (List.mem_flatMap.mpr ⟨range, member, List.mem_range'_1.mpr ⟨first, by omega⟩⟩)
  rwa [Char.ofNat_toNat] at code

theorem lowerChar_of_isBlank {c : Char} (blank : isBlank c = true) : lowerChar c = [c] :=
  of_isBlank (P := fun c => lowerChar c = [c]) blank (by decide +kernel)

theorem mem_lowerAfter_of_isBlank {c : Char} (blank : isBlank c = true) {s : List Char} (member : c ∈ s)
    (before : List Char) : c ∈ lowerAfter before s := by
  induction s generalizing before with
  | nil => cases member
  | cons d rest ih =>
    rw [lowerAfter, List.mem_append]
    rcases List.mem_cons.mp member with rfl | later
    · have plain : c ≠ 'Σ' := by
        rintro rfl
        exact absurd blank (by decide)
      rw [if_neg plain, lowerChar_of_isBlank blank]
      exact .inl (List.mem_singleton.mpr rfl)
    · exact .inr (ih later (d :: before))

theorem isBlank_of_mem_lowercase {word : String} (solid : ∀ c ∈ (lowercase word).toList, isBlank c = false) :
    ∀ c ∈ word.toList, isBlank c = false := by
  intro c member
  refine eq_false_of_ne_true fun blank => ?_
  have kept : c ∈ (lowercase word).toList := by
    rw [lowercase, String.toList_ofList]
    exact mem_lowerAfter_of_isBlank blank member []
  rw [solid c kept] at blank
  cases blank

/-! ### ASCII capitals -/

theorem toLower_eq_or (c : Char) : c.toLower = c ∨ 65 ≤ c.toNat ∧ c.toNat ≤ 90 := by
  by_cases inside : 65 ≤ c.toNat ∧ c.toNat ≤ 90
  · exact .inr inside
  · exact .inl (dif_neg inside)

/-- What holds of the capitals among the ASCII letters, and of characters that stay as they are. -/
theorem of_toLower {P : Char → Char → Prop} (same : ∀ c, P c c)
    (capitals : ∀ n ∈ List.range' 65 26, P (Char.ofNat n) (Char.ofNat n).toLower) (c : Char) : P c c.toLower := by
  rcases toLower_eq_or c with kept | ⟨first, last⟩
  · rw [kept]
    exact same c
  · have code := capitals c.toNat (List.mem_range'_1.mpr ⟨first, by omega⟩)
    rwa [Char.ofNat_toNat] at code

/-! ### No new blanks -/

theorem inRanges_eq_false {ranges : List (Nat × Nat)} {c : Char}
    (outside : ∀ range ∈ ranges, c.toNat < range.1 ∨ range.2 < c.toNat) : inRanges ranges c = false := by
  refine List.any_eq_false.mpr fun range listed inside => ?_
  obtain ⟨first, last⟩ : range.1 ≤ c.toNat ∧ c.toNat ≤ range.2 := by simpa using inside
  rcases outside range listed with below | above <;> omega

theorem isBlank_ofNat {n : Nat} (outside : ∀ range ∈ blankRanges, n < range.1 ∨ range.2 < n) :
    isBlank (Char.ofNat n) = false := by
  by_cases valid : n.isValidChar
  · have code : (Char.ofNat n).toNat = n := by
      rw [Char.ofNat, dif_pos valid]
      rfl
    exact inRanges_eq_false (by rwa [code])
  · rw [Char.ofNat, dif_neg valid]
    decide

/-- No capital has its lower case among the blanks. -/
theorem isBlank_lowerCode {c : Char} (solid : isBlank c = false) : isBlank (Char.ofNat (lowerCode c.toNat)) = false := by
  have apart : ∀ run ∈ capitalRuns, ∀ range ∈ blankRanges,
      run.2.2.2 + (run.2.1 - run.1) < range.1 ∨ range.2 < run.2.2.2 := by
    decide +kernel
  rw [lowerCode]
  split
  · rename_i first last step image found
    have listed : (first, last, step, image) ∈ capitalRuns := List.mem_of_find?_eq_some found
    have inside := List.find?_some found
    simp only [Bool.and_eq_true, decide_eq_true_eq] at inside
    refine isBlank_ofNat fun range blank => ?_
    have parted : image + (last - first) < range.1 ∨ range.2 < image := apart _ listed range blank
    omega
  · rw [Char.ofNat_toNat, solid]

theorem solid_lowerChar {c : Char} (solid : isBlank c = false) : ∀ d ∈ lowerChar c, isBlank d = false := by
  rw [lowerChar]
  split
  · intro d member
    rw [List.mem_singleton.mp member]
    exact (of_toLower (P := fun c d => isBlank c = false → isBlank d = false) (fun _ => id) (by decide +kernel) c) solid
  · split
    · exact any_isBlank_eq_false.mp (by decide)
    · intro d member
      rw [List.mem_singleton.mp member, isBlank_lowerCode solid]

/-- Lower-casing makes no blanks. -/
theorem solid_lowerAfter {s : List Char} (solid : ∀ c ∈ s, isBlank c = false) (before : List Char) :
    ∀ c ∈ lowerAfter before s, isBlank c = false := by
  induction s generalizing before with
  | nil => exact fun c none => absurd none List.not_mem_nil
  | cons d rest ih =>
    obtain ⟨first, others⟩ := List.forall_mem_cons.mp solid
    rw [lowerAfter]
    refine List.forall_mem_append.mpr ⟨?_, ih others (d :: before)⟩
    split
    · exact List.forall_mem_singleton.mpr (by split <;> decide)
    · exact solid_lowerChar first

/-! ### The case of ASCII letters -/

/-- No ASCII letter is passed over around a sigma. -/
theorem ignorable_toLower (c : Char) : inRanges caseIgnorableRanges c.toLower = inRanges caseIgnorableRanges c := by
  have apart : ∀ range ∈ caseIgnorableRanges, range.2 < 65 ∨ (90 < range.1 ∧ range.2 < 97) ∨ 122 < range.1 := by
    decide +kernel
  have codes : ∀ n ∈ List.range' 65 26, (Char.ofNat n).toNat = n ∧ (Char.ofNat n).toLower.toNat = n + 32 := by
    decide
  refine (of_toLower (P := fun c d => inRanges caseIgnorableRanges c = inRanges caseIgnorableRanges d) (fun _ => rfl) ?_ c).symm
  intro n letter
  obtain ⟨upper, lower⟩ := codes n letter
  have bounds := List.mem_range'_1.mp letter
  have outside : ∀ range ∈ caseIgnorableRanges, n < range.1 ∨ range.2 < n := fun range listed => by
    have parted := apart range listed
    omega
  have below : ∀ range ∈ caseIgnorableRanges, n + 32 < range.1 ∨ range.2 < n + 32 := fun range listed => by
    have parted := apart range listed
    omega
  rw [inRanges_eq_false (by rwa [upper]), inRanges_eq_false (by rwa [lower])]

theorem cased_toLower (c : Char) : inRanges casedRanges c.toLower = inRanges casedRanges c :=
  (of_toLower (P := fun c d => inRanges casedRanges c = inRanges casedRanges d) (fun _ => rfl) (by decide +kernel) c).symm

theorem lowerChar_toLower (c : Char) : lowerChar c.toLower = lowerChar c :=
  (of_toLower (P := fun c d => lowerChar c = lowerChar d) (fun _ => rfl) (by decide +kernel) c).symm

theorem startsCased_map_toLower (s : List Char) : startsCased (s.map Char.toLower) = startsCased s := by
  have skipped : (s.map Char.toLower).dropWhile (inRanges caseIgnorableRanges) =
      (s.dropWhile (inRanges caseIgnorableRanges)).map Char.toLower := by
    rw [List.dropWhile_map]
    congr 2
    funext c
    exact ignorable_toLower c
  rw [startsCased, startsCased, skipped]
  cases s.dropWhile (inRanges caseIgnorableRanges) with
  | nil => rfl
  | cons c rest => exact cased_toLower c

theorem toLower_eq_sigma_iff (c : Char) : c.toLower = 'Σ' ↔ c = 'Σ' :=
  of_toLower (P := fun c d => d = 'Σ' ↔ c = 'Σ') (fun _ => Iff.rfl) (by decide +kernel) c

/-- Whether the ASCII letters are lower-cased first makes no difference. -/
theorem lowerAfter_map_toLower (before s : List Char) :
    lowerAfter (before.map Char.toLower) (s.map Char.toLower) = lowerAfter before s := by
  induction s generalizing before with
  | nil => rfl
  | cons c rest ih =>
    have later : lowerAfter (c.toLower :: before.map Char.toLower) (rest.map Char.toLower) = lowerAfter (c :: before) rest :=
      ih (c :: before)
    rw [List.map_cons, lowerAfter, lowerAfter, later, lowerChar_toLower, startsCased_map_toLower, startsCased_map_toLower]
    simp only [toLower_eq_sigma_iff]

theorem lowercase_eq_of_equalIgnoringAsciiCase {s t : String} (alike : equalIgnoringAsciiCase s t = true) :
    lowercase s = lowercase t := by
  have letters : s.toList.map Char.toLower = t.toList.map Char.toLower := by simpa [equalIgnoringAsciiCase] using alike
  have same : lowerChars s.toList = lowerChars t.toList := by
    calc lowerChars s.toList = lowerAfter [] (s.toList.map Char.toLower) := (lowerAfter_map_toLower [] s.toList).symm
      _ = lowerAfter [] (t.toList.map Char.toLower) := by rw [letters]
      _ = lowerChars t.toList := lowerAfter_map_toLower [] t.toList
  rw [lowercase, lowercase, same]

theorem lowerChars_of_ascii {s : List Char} (ascii : ∀ c ∈ s, c.toNat < 128) : lowerChars s = s.map Char.toLower := by
  have all : ∀ before, lowerAfter before s = s.map Char.toLower := by
    induction s with
    | nil => exact fun _ => rfl
    | cons c rest ih =>
      intro before
      obtain ⟨here, others⟩ := List.forall_mem_cons.mp ascii
      have plain : c ≠ 'Σ' := by
        rintro rfl
        exact absurd here (by decide)
      rw [lowerAfter, if_neg plain, lowerChar, if_pos here, ih others, List.map_cons, List.singleton_append]
  exact all []

theorem equalIgnoringAsciiCase_of_ascii {s t : String} (letters : ∀ c ∈ s.toList, c.toNat < 128)
    (others : ∀ c ∈ t.toList, c.toNat < 128) (alike : lowercase s = lowercase t) : equalIgnoringAsciiCase s t = true := by
  have same : lowerChars s.toList = lowerChars t.toList := by
    simpa only [lowercase, String.toList_ofList] using congrArg String.toList alike
  rw [lowerChars_of_ascii letters, lowerChars_of_ascii others] at same
  exact decide_eq_true same

end PortfolioShell.Text
