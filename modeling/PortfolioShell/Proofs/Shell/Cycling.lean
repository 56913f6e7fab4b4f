import Mathlib.Data.List.Induction
import PortfolioShell.Shell.SuggestionCycle

/-! # Going round a list of candidates

A cycle that is offered the same list again and again shows its entries one after the other and begins anew behind
the last. So where it stands is told by the list and by how often the list was offered before. Whatever a cycle has been
used for, only the offers of this one list that come last count (`accept_walks_round`). -/

namespace PortfolioShell.SuggestionCycle

/-- The cycle at a position of a list, counted round. An empty list has no positions. -/
def showing (candidates : List String) (position : Nat) : SuggestionCycle :=
  ⟨candidates, if candidates = [] then none else some (position % candidates.length)⟩

theorem getElem?_round_eq_none_iff {candidates : List String} {position : Nat} :
    candidates[position % candidates.length]? = none ↔ candidates = [] := by
  constructor
  · intro nothing
    by_contra filled
    have inside : position % candidates.length < candidates.length := Nat.mod_lt position (List.length_pos_iff.mpr filled)
    rw [List.getElem?_eq_getElem inside] at nothing
    cases nothing
  · rintro rfl
    rfl

theorem isActive_showing_eq_false_iff {candidates : List String} {position : Nat} :
    (showing candidates position).isActive = false ↔ candidates = [] := by
  by_cases empty : candidates = [] <;> simp [isActive, showing, empty]

theorem accept_idle (offered : List String) :
    idle.accept offered = (offered[0 % offered.length]?, showing offered 0) := by
  rw [Nat.zero_mod, ← List.head?_eq_getElem?]
  show accept.start offered = _
  rw [accept.start, showing, Nat.zero_mod]

theorem accept_showing (offered : List String) (position : Nat) : (showing offered position).accept offered =
    (offered[(position + 1) % offered.length]?, showing offered (position + 1)) := by
  by_cases empty : offered = []
  · rw [empty]
    rfl
  · have round : (position % offered.length + 1) % offered.length = (position + 1) % offered.length :=
      Nat.mod_add_mod position offered.length 1
    simp only [showing, accept, if_neg empty, if_true, round]

/-- Another list, or the first one of all, is begun at its first entry. -/
theorem accept_other {c : SuggestionCycle} {offered : List String} (other : c.index.isSome = true → offered ≠ c.candidates) :
    c.accept offered = (offered[0 % offered.length]?, showing offered 0) := by
  rw [← accept_idle]
  cases here : c.index with
  | none => simp only [accept, here, idle]
  | some i => simp only [accept, here, idle, if_neg (other (by rw [here, Option.isSome_some]))]

/-! ### Any use of a cycle -/

/-- A list is offered, or the walk is given up. -/
inductive Use where
  | accept (offered : List String)
  | reset
  deriving DecidableEq

def use (c : SuggestionCycle) : Use → SuggestionCycle
  | .accept offered => (c.accept offered).2
  | .reset => idle

def after (uses : List Use) : SuggestionCycle := uses.foldl use idle

/-- How many uses at the end, one directly behind the other, offered this very list. -/
def timesOffered (uses : List Use) (offered : List String) : Nat :=
  (uses.reverse.takeWhile (· = .accept offered)).length

theorem timesOffered_concat (uses : List Use) (offered : List String) (u : Use) :
    timesOffered (uses ++ [u]) offered = if u = .accept offered then timesOffered uses offered + 1 else 0 := by
  rw [timesOffered, List.reverse_append, List.reverse_singleton, List.singleton_append, List.takeWhile_cons]
  by_cases same : u = .accept offered
  · simp [same, timesOffered]
  · simp [same]

theorem after_concat (uses : List Use) (u : Use) : after (uses ++ [u]) = (after uses).use u := by
  rw [after, List.foldl_append, List.foldl_cons, List.foldl_nil, ← after]

def Sound (c : SuggestionCycle) : Prop := ∀ i, c.index = some i → i < c.candidates.length

theorem sound_showing (candidates : List String) (position : Nat) : (showing candidates position).Sound := by
  intro i here
  by_cases empty : candidates = []
  · simp [showing, empty] at here
  · obtain rfl : position % candidates.length = i := by simpa [showing, empty] using here
    exact Nat.mod_lt position (List.length_pos_iff.mpr empty)

theorem accept_after (uses : List Use) (offered : List String) : (after uses).accept offered =
    (offered[timesOffered uses offered % offered.length]?, showing offered (timesOffered uses offered)) := by
  -- the last use decides: it offered this very list and the walk goes on, or the walk begins anew
  induction uses using List.reverseRecOn generalizing offered with
  | nil => exact accept_idle offered
  | append_singleton uses u ih =>
    rw [after_concat, timesOffered_concat]
    cases u with
    | reset => exact accept_idle offered
    | accept last =>
      rw [use, ih last]
      by_cases same : last = offered
      · rw [same, if_pos rfl, accept_showing]
      · rw [if_neg (fun equal => same (Use.accept.inj equal))]
        exact accept_other fun _ equal => same equal.symm

theorem sound_after (uses : List Use) : (after uses).Sound := by
  have sound_idle : idle.Sound := fun i here => nomatch here
  cases uses using List.reverseRecOn with
  | nil => exact sound_idle
  | append_singleton uses u =>
    rw [after_concat]
    cases u with
    | reset => exact sound_idle
    | accept offered =>
      rw [use, accept_after]
      exact sound_showing offered _

/-- After any uses an index is a position of the list that is kept. So when this list is offered again while there is an
index, there is a length to count round by. Nothing is given exactly for an empty list, and exactly then there is no index
afterwards. Any other list gives the entry at the number, counted round, of the uses that offered this very list
directly before. -/
theorem accept_walks_round (uses : List Use) (offered : List String) :
    let c := after uses
    (∀ i, c.index = some i → i < c.candidates.length) ∧
    (c.isActive = true → offered = c.candidates → offered.length ≠ 0) ∧
    ((c.accept offered).1 = none ↔ offered = []) ∧ ((c.accept offered).2.isActive = false ↔ offered = []) ∧
    (c.accept offered).1 = offered[timesOffered uses offered % offered.length]? := by
  intro c
  refine ⟨sound_after uses, fun active same => ?_, ?_, ?_, ?_⟩
  · obtain ⟨i, here⟩ := Option.isSome_iff_exists.mp active
    have inside : i < c.candidates.length := sound_after uses i here
    rw [same]
    omega
  · rw [accept_after]
    exact getElem?_round_eq_none_iff
  · rw [accept_after]
    exact isActive_showing_eq_false_iff
  · rw [accept_after]

theorem accept_walks_round_in_sample :
    let c := after [.accept ["a", "b"], .reset, .accept ["a", "b"], .accept ["a", "b"], .accept ["a", "b"]]
    c.isActive = true ∧ ["a", "b"] = c.candidates ∧ ["a", "b"].length ≠ 0 ∧ (c.accept ["a", "b"]).1 = some "b" := by
  intro c
  have active : c.isActive = true := by decide
  have same : ["a", "b"] = c.candidates := by decide
  obtain ⟨-, divides, -, -, entry⟩ := accept_walks_round
    [.accept ["a", "b"], .reset, .accept ["a", "b"], .accept ["a", "b"], .accept ["a", "b"]] ["a", "b"]
  exact ⟨active, same, divides active same, entry.trans (by decide)⟩

end PortfolioShell.SuggestionCycle
