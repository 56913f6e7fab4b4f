import PortfolioShell.Decimal.Shortest

/-! # Layout of decimals

How the digits of a number are set out: with a point where it belongs, or with one digit before the point
and a power of ten behind. -/

namespace PortfolioShell.Decimal

structure Layout where
  least : Int
  bound : Int

def plainDigits (digits : List Char) (scale : Int) : List Char :=
  if 0 ≤ scale then digits ++ List.replicate scale.toNat '0' ++ ['.', '0']
  else
    let places := (-scale).toNat
    if places < digits.length then
      digits.take (digits.length - places) ++ '.' :: digits.drop (digits.length - places)
    else '0' :: '.' :: List.replicate (places - digits.length) '0' ++ digits

def poweredDigits (digits : List Char) (power : Int) : List Char :=
  let mantissa := match digits with
    | first :: second :: rest => first :: '.' :: second :: rest
    | few => few
  mantissa ++ 'e' :: (if power < 0 then '-' else '+') :: Nat.toDigits 10 power.natAbs

def Layout.write (layout : Layout) (digits : Nat) (scale : Int) : List Char :=
  let text := Nat.toDigits 10 digits
  let power := text.length - 1 + scale
  if layout.least ≤ power && power < layout.bound then plainDigits text scale
  else poweredDigits text power

def Layout.writeFloat (layout : Layout) (x : Float) : List Char :=
  let bits := x.toBits.toNat
  let sign := if bits / Nat.pow 2 63 = 1 then ['-'] else []
  let size := Binary.ofBits bits
  sign ++ if size.significand = 0 then ['0', '.', '0']
    else layout.write size.shortest.1 size.shortest.2

end PortfolioShell.Decimal
