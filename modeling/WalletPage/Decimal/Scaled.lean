import WalletPage.Decimal.Shortest

/-! Reading decimals as 64-bit floating point numbers. Of a long decimal only
the leading digits that fit into 64 bits count; they are rounded to a floating
point number, which is then multiplied or divided by a power of ten. -/

namespace WalletPage.Decimal

/-- The largest significand that is kept. -/
def significandLimit : Nat :=
  UInt64.size - 1

/-- A decimal `significand * 10 ^ exponent`, as far as its digits were kept. -/
structure Scaled where
  significand : Nat
  exponent : Int
deriving DecidableEq, Repr

/-- Appends the digits of a whole part. From the first digit that does not fit
on, every digit only moves the decimal point. -/
def Scaled.pushWhole (s : Scaled) : List Nat → Scaled
  | [] => s
  | d :: ds =>
    if s.significand * 10 + d ≤ significandLimit then
      pushWhole { s with significand := s.significand * 10 + d } ds
    else { s with exponent := s.exponent + (ds.length + 1) }

/-- Appends the digits of a fractional part, up to the first that does not fit. -/
def Scaled.pushFraction (s : Scaled) : List Nat → Scaled
  | [] => s
  | d :: ds =>
    if s.significand * 10 + d ≤ significandLimit then
      pushFraction ⟨s.significand * 10 + d, s.exponent - 1⟩ ds
    else s

/-- `10 ^ k` as a floating point number, for `k` up to 308. -/
def powerOfTen (k : Nat) : Float :=
  Float.ofScientific 1 false k

/-- `x * 10 ^ exponent`, or nothing when that exceeds every floating point number. -/
def scaleBy (x : Float) (exponent : Int) : Option Float :=
  if exponent.natAbs ≤ 308 then
    if 0 ≤ exponent then
      let product := x * powerOfTen exponent.natAbs
      if product.isInf then none else some product
    else some (x / powerOfTen exponent.natAbs)
  else if x == 0 then some x
  else if h : 0 ≤ exponent then none
  else scaleBy (x / powerOfTen 308) (exponent + 308)
termination_by exponent.natAbs
decreasing_by omega

/-- The floating point number that a decimal is read as. -/
def Scaled.toBinary64 (s : Scaled) (negative : Bool) : Option Binary64 :=
  (scaleBy s.significand.toUInt64.toFloat s.exponent).map fun x =>
    .ofFloat (if negative then -x else x)

end WalletPage.Decimal
