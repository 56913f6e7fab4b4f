/-! # Shortest decimals

The decimal digits of a binary floating-point number. A number stands for all reals that round to it, an
interval around it. Of the decimal grids, the multiples of a power of ten, the coarsest one with a point in
that interval gives the fewest digits; of its points the nearest is taken, and of two equally near ones
the even one. All comparisons are between natural numbers. -/

namespace PortfolioShell.Decimal

structure Binary where
  significand : Nat
  exponent : Nat
  deriving DecidableEq, Repr

def Binary.ofBits (bits : Nat) : Binary :=
  let field := bits / Nat.pow 2 52 % Nat.pow 2 11
  let fraction := bits % Nat.pow 2 52
  if field = 0 then ⟨fraction, 1⟩ else ⟨Nat.pow 2 52 + fraction, field⟩

/-! ### The interval of a number

Everything is counted in units of `2 ^ -1077`, a quarter of the smallest distance between numbers. -/

def Binary.units (b : Binary) : Nat := 4 * b.significand * Nat.pow 2 b.exponent

/-- Half the distance to the number below; it is halved where the exponent changes. -/
def Binary.reachBelow (b : Binary) : Nat :=
  (if b.significand = Nat.pow 2 52 && 1 < b.exponent then 1 else 2) * Nat.pow 2 b.exponent

def Binary.reachAbove (b : Binary) : Nat := 2 * Nat.pow 2 b.exponent

/-- Does a real of `num / den` units round to the number? The ends of the interval do if the
significand is even. -/
def Binary.attracts (b : Binary) (num den : Nat) : Bool :=
  let low := (b.units - b.reachBelow) * den
  let high := (b.units + b.reachAbove) * den
  if b.significand % 2 = 0 then low ≤ num && num ≤ high else low < num && num < high

/-! ### Grids -/

def stepNum (scale : Int) : Nat := Nat.pow 10 scale.toNat * Nat.pow 2 1077

def stepDen (scale : Int) : Nat := Nat.pow 10 (-scale).toNat

/-- The nearest point of a grid that rounds to the number, as a multiple of the step. -/
def Binary.pointOn (b : Binary) (scale : Int) : Option Nat :=
  let step := stepNum scale
  let den := stepDen scale
  let below := b.units * den / step
  let rest := b.units * den % step
  let first := if 2 * rest < step || (2 * rest = step && below % 2 = 0) then below else below + 1
  let second := if first = below then below + 1 else below
  if b.attracts (first * step) den then some first
  else if b.attracts (second * step) den then some second
  else none

def Binary.shortest (b : Binary) : Nat × Int :=
  let scales : List Int := (List.range 633).map fun (i : Nat) => 308 - (i : Int)
  (scales.findSome? fun scale => (b.pointOn scale).map (·, scale)).getD (0, 0)

end PortfolioShell.Decimal
