/-! # JSON values

A JSON document as data. An object keeps its members in the order in which they stand, so a key may come
twice; in the canonical form of a value every object has its keys in strictly increasing order, and of
several members with one key the last remains. -/

namespace PortfolioShell.Json

structure Whole where
  val : Int
  lower : -9223372036854775808 ≤ val
  upper : val < 18446744073709551616
  deriving DecidableEq

def Whole.ofInt? (n : Int) : Option Whole :=
  if h : -9223372036854775808 ≤ n ∧ n < 18446744073709551616 then some ⟨n, h.1, h.2⟩ else none

def Whole.ofNat (n : Nat) : Whole :=
  ⟨min n 18446744073709551615, by omega, by omega⟩

def Whole.ofUInt64 (n : UInt64) : Whole :=
  ⟨n.toNat, by omega, by have := n.toNat_lt; omega⟩

inductive Number where
  | whole (n : Whole)
  | real (x : Float)
  deriving DecidableEq

inductive Value where
  | null
  | bool (b : Bool)
  | number (n : Number)
  | string (s : String)
  | array (items : List Value)
  | object (members : List (String × Value))
  deriving Inhabited

namespace Value

def nat (n : Nat) : Value := .number (.whole (.ofNat n))

def strings (texts : List String) : Value := .array (texts.map .string)

def optional : Option String → Value
  | none => .null
  | some s => .string s

def field? (v : Value) (key : String) : Option Value :=
  match v with
  | .object members => members.lookup key
  | _ => none

def string? : Value → Option String
  | .string s => some s
  | _ => none

def bool? : Value → Option Bool
  | .bool b => some b
  | _ => none

def nat? : Value → Option Nat
  | .number (.whole n) => if 0 ≤ n.val then some n.val.toNat else none
  | _ => none

def array? : Value → Option (List Value)
  | .array items => some items
  | _ => none

end Value

/-! ### Canonical form -/

/-- Puts a member into a list with strictly increasing keys, in place of one with the same key. -/
def putMember {α : Type} (key : String) (value : α) : List (String × α) → List (String × α)
  | [] => [(key, value)]
  | (k, v) :: rest =>
    if key < k then (key, value) :: (k, v) :: rest
    else if key = k then (key, value) :: rest
    else (k, v) :: putMember key value rest

theorem mem_putMember {α : Type} {key : String} {value : α} {members : List (String × α)}
    {m : String × α} (h : m ∈ putMember key value members) : m = (key, value) ∨ m ∈ members := by
  induction members with
  | nil => simp_all [putMember]
  | cons head rest ih =>
    obtain ⟨k, v⟩ := head
    simp only [putMember] at h
    split at h
    · simp_all
    · split at h <;> grind

theorem ordered_putMember {α : Type} {key : String} {value : α} {members : List (String × α)}
    (h : members.Pairwise (·.1 < ·.1)) : (putMember key value members).Pairwise (·.1 < ·.1) := by
  induction members with
  | nil => simp [putMember]
  | cons head rest ih =>
    obtain ⟨k, v⟩ := head
    rw [List.pairwise_cons] at h
    simp only [putMember]
    split
    · next before =>
      refine List.pairwise_cons.2 ⟨fun m hm => ?_, List.pairwise_cons.2 h⟩
      rcases List.mem_cons.1 hm with rfl | hm
      · exact before
      · exact String.lt_trans before (h.1 m hm)
    · next notBefore =>
      split
      · next same => exact List.pairwise_cons.2 ⟨fun m hm => same ▸ h.1 m hm, h.2⟩
      · next differ =>
        refine List.pairwise_cons.2 ⟨fun m hm => ?_, ih h.2⟩
        have after : k < key := Classical.byContradiction fun no =>
          differ (String.le_antisymm (String.not_lt.1 no) (String.not_lt.1 notBefore))
        rcases mem_putMember hm with rfl | hm
        · exact after
        · exact h.1 m hm

mutual

/-- The value with the members of every object in order of their keys, the last one of each key. -/
def Value.canonical : Value → Value
  | .array items => .array (canonicalItems items)
  | .object members => .object (canonicalMembers members [])
  | v => v

def canonicalItems : List Value → List Value
  | [] => []
  | v :: rest => v.canonical :: canonicalItems rest

def canonicalMembers : List (String × Value) → List (String × Value) → List (String × Value)
  | [], placed => placed
  | (k, v) :: rest, placed => canonicalMembers rest (putMember k v.canonical placed)

end

end PortfolioShell.Json
