import PortfolioShell.Proofs.Text.Fields
import PortfolioShell.Proofs.Tree.Paths

/-! # Routes

What a path expression does, told apart from the place where it is resolved: a `Route` starts at the root or goes
some steps up, and then leads down past plain names. Each field of an expression changes the route that the fields
before it make, and the expression leads from every place where its route leads (`resolve_eq_leadsFrom`). So
resolving is uniform in the place, also where the root is met on the way up; and a path that is made of two is
resolved by resolving the one after the other, because its fields are those of the two. -/

namespace PortfolioShell

/-- A way to go that does not depend on where it begins. A route that starts at the root goes nowhere up. -/
structure Route where
  fromRoot : Bool
  ups : Nat
  names : List String
  deriving DecidableEq, Repr

namespace Route

def here : Route := ⟨false, 0, []⟩

def home : Route := ⟨true, 0, []⟩

/-- Without a name to take back, one step more up at the start. -/
def up (r : Route) : Route :=
  if r.names = [] then { r with ups := r.ups + 1 } else { r with names := r.names.dropLast }

def down (r : Route) (name : String) : Route := { r with names := r.names ++ [name] }

def step (r : Route) (segment : String) : Route :=
  if segment = "" || segment = "." then r
  else if segment = ".." then r.up
  else if segment = "~" then home
  else r.down segment

def ofPath (expression : String) : Route := (Text.split '/' expression).foldl step here

/-- Where a route leads from a place. The way up ends at the root. -/
def leadsFrom (r : Route) (l : Location) : Location :=
  ⟨(if r.fromRoot then [] else l.segments.take (l.depth - r.ups)) ++ r.names⟩

def IsPlain (r : Route) : Prop := ∀ name ∈ r.names, PlainName name

variable {r : Route} {l : Location} {segment name : String}

/-! ### Where a step leads -/

theorem here_leadsFrom (l : Location) : here.leadsFrom l = l := by
  simp [here, leadsFrom, Location.depth]

theorem home_leadsFrom (l : Location) : home.leadsFrom l = .root := rfl

theorem up_leadsFrom (r : Route) (l : Location) : r.up.leadsFrom l = (r.leadsFrom l).parent := by
  rw [up]
  by_cases nameless : r.names = []
  · rw [if_pos nameless]
    simp only [leadsFrom, Location.parent, nameless, List.append_nil]
    by_cases absolute : r.fromRoot = true
    · simp [absolute]
    · -- a place near the root is left with nothing to drop
      have shorter : min (min (l.depth - r.ups) l.depth - 1) (l.depth - r.ups) = l.depth - (r.ups + 1) := by omega
      have count : (l.segments.take (l.depth - r.ups)).length = min (l.depth - r.ups) l.depth := List.length_take
      rw [if_neg absolute, if_neg absolute, List.dropLast_eq_take, count, List.take_take, shorter]
  · rw [if_neg nameless]
    simp only [leadsFrom, Location.parent, List.dropLast_append_of_ne_nil nameless]

theorem down_leadsFrom (r : Route) (name : String) (l : Location) :
    (r.down name).leadsFrom l = (r.leadsFrom l).join name :=
  congrArg Location.mk (List.append_assoc _ r.names [name]).symm

theorem step_leadsFrom (r : Route) (segment : String) (l : Location) :
    (r.step segment).leadsFrom l = (r.leadsFrom l).step segment := by
  rw [step, Location.step]
  split
  · rfl
  · split
    · exact up_leadsFrom r l
    · split
      · exact home_leadsFrom l
      · exact down_leadsFrom r segment l

theorem foldl_step_leadsFrom (segments : List String) (r : Route) (l : Location) :
    (segments.foldl step r).leadsFrom l = segments.foldl Location.step (r.leadsFrom l) := by
  induction segments generalizing r with
  | nil => rfl
  | cons segment rest ih => rw [List.foldl_cons, List.foldl_cons, ih, step_leadsFrom]

/-! ### Plain names -/

theorem IsPlain.up (plain : r.IsPlain) : r.up.IsPlain := by
  rw [Route.up]
  split
  · exact plain
  · exact fun name member => plain name (List.mem_of_mem_dropLast member)

theorem IsPlain.down (plain : r.IsPlain) (named : PlainName name) : (r.down name).IsPlain :=
  List.forall_mem_append.mpr ⟨plain, List.forall_mem_singleton.mpr named⟩

/-- What is none of the fields that lead elsewhere, and holds no slash, is a plain name. -/
theorem IsPlain.step (plain : r.IsPlain) (whole : '/' ∉ segment.toList) : (r.step segment).IsPlain := by
  rw [Route.step]
  by_cases idle : segment = "" ∨ segment = "."
  · rw [if_pos (by simpa using idle)]
    exact plain
  · rw [if_neg (by simpa using idle)]
    obtain ⟨filled, notHere⟩ := not_or.mp idle
    by_cases upward : segment = ".."
    · rw [if_pos upward]
      exact plain.up
    · rw [if_neg upward]
      by_cases homeward : segment = "~"
      · rw [if_pos homeward]
        exact List.forall_mem_nil _
      · rw [if_neg homeward]
        exact plain.down ⟨filled, whole, notHere, upward, homeward⟩

theorem IsPlain.foldl_step {segments : List String} (plain : r.IsPlain) (whole : ∀ segment ∈ segments, '/' ∉ segment.toList) :
    (segments.foldl Route.step r).IsPlain := by
  induction segments generalizing r with
  | nil => exact plain
  | cons segment rest ih =>
    obtain ⟨first, others⟩ := List.forall_mem_cons.mp whole
    exact ih (plain.step first) others

theorem isPlain_ofPath (expression : String) : (ofPath expression).IsPlain := by
  have nameless : here.IsPlain := List.forall_mem_nil _
  exact nameless.foldl_step fun _ member => Text.not_mem_of_mem_split member

end Route

namespace Location

theorem resolve_eq_leadsFrom (l : Location) (expression : String) :
    l.resolve expression = (Route.ofPath expression).leadsFrom l := by
  rw [resolve, Route.ofPath, Route.foldl_step_leadsFrom, Route.here_leadsFrom]

theorem resolve_append (l : Location) (a b : String) : l.resolve (a ++ "/" ++ b) = (l.resolve a).resolve b := by
  have fields : Text.split '/' (a ++ "/" ++ b) = Text.split '/' a ++ Text.split '/' b := Text.split_append '/' a b
  rw [resolve, fields, List.foldl_append]
  rfl

/-- Every path expression has one route past plain names, and leads from every place where that leads: from the
root, or up and then, past the names, down. Two expressions one after the other are one with a slash between. -/
theorem resolve_is_uniform :
    (∀ expression : String, ∃ route : Route, route.IsPlain ∧ ∀ l : Location, l.resolve expression = route.leadsFrom l) ∧
    ∀ (l : Location) (a b : String), (l.resolve a).resolve b = l.resolve (a ++ "/" ++ b) := by
  constructor
  · intro expression
    exact ⟨Route.ofPath expression, Route.isPlain_ofPath expression, fun l => l.resolve_eq_leadsFrom expression⟩
  · intro l a b
    exact (l.resolve_append a b).symm

/-- A step up is taken from the names first, and from the place where none is left. -/
example : Route.ofPath "a/../..//b/./c/" = ⟨false, 1, ["b", "c"]⟩ := by decide

end Location

end PortfolioShell
