import WalletPage.Decimal.Shortest

/-! Texts of numbers. An integer is its decimal digits. A floating point number
is written with its shortest digits, positionally from `0.00001` up to but
without `10 ^ 16`, and with a signed exponent elsewhere; a positional number
has at least one digit after the point. -/

namespace WalletPage.Decimal

/-- The decimal digits of a natural number. -/
def natDigits (n : Nat) : List Char :=
  Nat.toDigits 10 n

/-- The decimal digits of an integer, with a minus sign if it is negative. -/
def intDigits : Int → List Char
  | .ofNat n => natDigits n
  | .negSucc n => '-' :: natDigits (n + 1)

/-- A number of at least `width` digits, filled with zeros in front. -/
def padded (width n : Nat) : List Char :=
  List.replicate (width - (natDigits n).length) '0' ++ natDigits n

/-- `d.ddd` with an exponent of ten that always has a sign. -/
def scientific (ds : List Char) (power : Int) : List Char :=
  let mantissa := match ds with
    | [] => ['0']
    | [d] => [d]
    | d :: rest => d :: '.' :: rest
  let sign := if power < 0 then '-' else '+'
  mantissa ++ 'e' :: sign :: natDigits power.natAbs

/-- Digits with a decimal point after the first `point` places. -/
def positional (ds : List Char) (point : Int) : List Char :=
  if point ≤ 0 then
    '0' :: '.' :: List.replicate point.natAbs '0' ++ ds
  else if ds.length ≤ point.toNat then
    ds ++ List.replicate (point.toNat - ds.length) '0' ++ ['.', '0']
  else
    ds.take point.toNat ++ '.' :: ds.drop point.toNat

/-- A positive decimal number in the layout of this library. -/
def Shortest.text (s : Shortest) : List Char :=
  let ds := natDigits s.digits
  let point := (ds.length : Int) + s.exponent
  if -5 < point ∧ point ≤ 16 then positional ds point else scientific ds (point - 1)

/-- The text of a floating point number; what is not a number is `null`. -/
def Binary64.text (x : Binary64) : List Char :=
  if x.isFinite then
    let magnitude := if x.significand = 0 then ['0', '.', '0'] else x.shortest.text
    if x.isNegative then '-' :: magnitude else magnitude
  else ['n', 'u', 'l', 'l']

end WalletPage.Decimal
