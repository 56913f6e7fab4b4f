import PortfolioShell.Proofs.Tree.Routes

/-! # Displayed locations

A location is shown as its names with a slash before each, and the root as a tilde. When the names are plain, what is
shown is a path expression for the location (`display_round_trip`): read at the root it leads back to it, with or
without the slash at its start, and behind `~/` it does so from anywhere. Two places are therefore never shown
alike. Whatever is resolved from the root has plain names only, because no route leads past other ones. -/

namespace PortfolioShell.Location

def IsPlain (l : Location) : Prop := ∀ name ∈ l.segments, PlainName name

variable {l m : Location}

/-! ### What is resolved is plain -/

theorem isPlain_root : root.IsPlain := List.forall_mem_nil _

theorem IsPlain.resolve (plain : l.IsPlain) (expression : String) : (l.resolve expression).IsPlain := by
  rw [resolve_eq_leadsFrom]
  refine List.forall_mem_append.mpr ⟨?_, Route.isPlain_ofPath expression⟩
  split
  · exact isPlain_root
  · exact fun name member => plain name (List.mem_of_mem_take member)

theorem IsPlain.foldl_resolve (plain : l.IsPlain) (expressions : List String) :
    (expressions.foldl Location.resolve l).IsPlain := by
  induction expressions generalizing l with
  | nil => exact plain
  | cons expression rest ih => exact ih (plain.resolve expression)

/-! ### What is shown -/

theorem toText_root : root.toText = "~" := rfl

theorem join_slashed {names : List String} (filled : names ≠ []) :
    String.join (names.map ("/" ++ ·)) = "/" ++ "/".intercalate names := by
  induction names with
  | nil => exact absurd rfl filled
  | cons name rest ih =>
    rw [List.map_cons, String.join_cons]
    cases rest with
    | nil => simp
    | cons next others =>
      have later := ih (List.cons_ne_nil next others)
      rw [later, String.intercalate_cons_cons, String.append_assoc, String.append_assoc]

theorem toText_below (below : l ≠ root) : l.toText = "/" ++ "/".intercalate l.segments := by
  obtain ⟨segments⟩ := l
  have filled : segments ≠ [] := fun none => below (congrArg Location.mk none)
  have notRoot : ¬ (Location.mk segments).isRoot = true := fun empty => filled (List.isEmpty_iff.mp empty)
  rw [toText, if_neg notRoot]
  exact join_slashed filled

/-! ### What is shown leads back -/

theorem resolve_names (plain : l.IsPlain) (below : l ≠ root) : root.resolve ("/".intercalate l.segments) = l := by
  have filled : l.segments ≠ [] := fun none => below (congrArg Location.mk none)
  rw [resolve_intercalate filled fun name member => (plain name member).whole, foldl_step_names plain]
  rfl

/-- An empty field leads nowhere, so a slash at the start may be left out. -/
theorem resolve_slashed (l : Location) (path : String) : l.resolve ("/" ++ path) = l.resolve path := by
  have parted : "/" ++ path = "" ++ "/" ++ path := by rw [String.empty_append]
  rw [parted, resolve_append, resolve_empty]

theorem resolve_behind_home (l : Location) (path : String) : l.resolve ("~/" ++ path) = root.resolve path := by
  have parted : "~/" ++ path = "~" ++ "/" ++ path := rfl
  rw [parted, resolve_append, resolve_home]

theorem resolve_toText (plain : l.IsPlain) : root.resolve l.toText = l := by
  by_cases top : l = root
  · rw [top, toText_root, resolve_home]
  · rw [toText_below top, resolve_slashed, resolve_names plain top]

/-- The text that is shown of a place with plain names leads from the root to that place, as it stands and without
the slash at its start, and from anywhere when it stands behind `~/`. No other such place is shown by this text.
And all that is resolved from the root, by whatever expressions, has plain names. -/
theorem display_round_trip {l : Location} (plain : l.IsPlain) :
    root.resolve l.toText = l ∧
    (l ≠ root → (∃ rest, l.toText = "/" ++ rest ∧ root.resolve rest = l) ∧
      ∀ base : Location, base.resolve ("~/" ++ l.toText) = l) ∧
    (∀ m : Location, m.IsPlain → l.toText = m.toText → l = m) ∧
    ∀ expressions : List String, (expressions.foldl Location.resolve root).IsPlain := by
  refine ⟨resolve_toText plain, fun below => ⟨?_, fun base => ?_⟩, fun m other same => ?_, isPlain_root.foldl_resolve⟩
  · exact ⟨"/".intercalate l.segments, toText_below below, resolve_names plain below⟩
  · rw [resolve_behind_home, resolve_toText plain]
  · calc l = root.resolve l.toText := (resolve_toText plain).symm
      _ = root.resolve m.toText := by rw [same]
      _ = m := resolve_toText other

theorem display_round_trip_in_sample :
    let l := Location.mk ["projects", "épic …", "..."]
    l.IsPlain ∧ l ≠ root ∧ l.toText = "/projects/épic …/..." ∧ root.resolve "/projects/épic …/..." = l ∧
      Location.resolve ⟨["skills"]⟩ "~//projects/épic …/..." = l := by
  intro l
  have plain : l.IsPlain := by
    intro name member
    have known : name = "projects" ∨ name = "épic …" ∨ name = "..." := by simpa [l] using member
    rcases known with rfl | rfl | rfl <;> exact ⟨by decide, by decide, by decide⟩
  have below : l ≠ root := by decide
  obtain ⟨back, elsewhere, -⟩ := display_round_trip plain
  exact ⟨plain, below, by decide, back, (elsewhere below).2 ⟨["skills"]⟩⟩

end PortfolioShell.Location
