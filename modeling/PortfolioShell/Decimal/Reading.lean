/-! # Reading decimals

A decimal number is read with a significand of 64 bits: digits are taken as long as they fit, and those
that come after count only by their place. The significand is then made a floating-point number and
multiplied or divided by a power of ten, each step rounding once, so that the result can lie next to the
number that is nearest to the decimal. -/

namespace PortfolioShell.Decimal

/-- Takes digits into a significand below `2 ^ 64` until one does not fit; with the digits left over. -/
def takeDigits (significand : Nat) : List Char → Nat × List Char
  | [] => (significand, [])
  | d :: rest =>
    let next := significand * 10 + (d.toNat - 48)
    if next < Nat.pow 2 64 then takeDigits next rest else (significand, d :: rest)

def digitsValue (digits : List Char) : Nat :=
  digits.foldl (fun n d => n * 10 + (d.toNat - 48)) 0

def tenTo (k : Nat) : Float := Float.ofScientific 1 false k

/-- Divides a number below `2 ^ 65` by `10 ^ k`, in two steps where `10 ^ k` is no floating-point number.
Two whole steps leave nothing. -/
def divideByTen (x : Float) (k : Nat) : Float :=
  if k ≤ 308 then x / tenTo k
  else if k ≤ 616 then x / tenTo 308 / tenTo (k - 308)
  else 0.0

def scaled (significand : Nat) (power : Int) : Option Float :=
  let x := (UInt64.ofNat significand).toFloat
  if power < 0 then some (divideByTen x power.natAbs)
  else if power ≤ 308 then
    let y := x * tenTo power.toNat
    if y.isInf then none else some y
  else if x == 0.0 then some x else none

end PortfolioShell.Decimal
