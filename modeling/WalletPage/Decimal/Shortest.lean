/-! Shortest decimals of 64-bit floating point numbers. A finite positive number
is `m * 2 ^ q`; the real numbers that round to it form an interval around it,
closed when `m` is even. Among the decimal grids `10 ^ k` the coarsest one with
a point in that interval carries the fewest digits, and of the points next to
the number the nearest is taken, an even one on a tie. All arithmetic is exact. -/

namespace WalletPage.Decimal

/-- A 64-bit floating point number, given by its bits: sign, eleven bits of
exponent, fifty-two bits of fraction. -/
structure Binary64 where
  bits : UInt64
deriving DecidableEq, Repr

namespace Binary64

/-- The number with these bits. -/
def toFloat (x : Binary64) : Float :=
  Float.ofBits x.bits

/-- The bits of a number. -/
def ofFloat (x : Float) : Binary64 :=
  ⟨x.toBits⟩

/-- Whether the sign bit is set. -/
def isNegative (x : Binary64) : Bool :=
  x.bits.toNat ≥ UInt64.size / 2

/-- The number of values that a fraction can have. -/
def fractionSize : Nat := 4503599627370496

/-- The eleven bits of the exponent. -/
def exponentField (x : Binary64) : Nat :=
  x.bits.toNat / fractionSize % 2048

/-- The fifty-two bits of the fraction. -/
def fraction (x : Binary64) : Nat :=
  x.bits.toNat % fractionSize

/-- Whether the bits are those of a number, neither an infinity nor a NaN. -/
def isFinite (x : Binary64) : Bool :=
  x.exponentField < 2047

/-- The integer `m` of `m * 2 ^ q`. -/
def significand (x : Binary64) : Nat :=
  if x.exponentField = 0 then x.fraction else fractionSize + x.fraction

/-- The exponent `q` of `m * 2 ^ q`. -/
def exponent (x : Binary64) : Int :=
  if x.exponentField = 0 then -1074 else (x.exponentField : Int) - 1075

/-- Whether the next smaller number is only half a step away. -/
def isStepEdge (x : Binary64) : Bool :=
  x.fraction == 0 && x.exponentField > 1

end Binary64

/-- A decimal number `digits * 10 ^ exponent`. -/
structure Shortest where
  digits : Nat
  exponent : Int
deriving DecidableEq, Repr

/-- `a * 10 ^ k * 2 ^ -e` as an integer after both negative powers are cleared. -/
def clearedDecimal (a : Nat) (k e : Int) : Nat :=
  a * Nat.pow 10 k.toNat * Nat.pow 2 (-e).toNat

/-- `b * 2 ^ e * 10 ^ -k` as an integer after both negative powers are cleared. -/
def clearedBinary (b : Nat) (k e : Int) : Nat :=
  b * Nat.pow 2 e.toNat * Nat.pow 10 (-k).toNat

/-- The interval of reals that round to a number, in quarters of `2 ^ q`. -/
structure Rounding where
  lower : Nat
  value : Nat
  upper : Nat
  closed : Bool
  exponent : Int

/-- The interval around `m * 2 ^ q`, narrower below at the edge of a step. -/
def Binary64.rounding (x : Binary64) : Rounding where
  lower := 4 * x.significand - (if x.isStepEdge then 1 else 2)
  value := 4 * x.significand
  upper := 4 * x.significand + 2
  closed := x.significand % 2 == 0
  exponent := x.exponent - 2

namespace Rounding

/-- Whether `c * 10 ^ k` rounds to the number. -/
def holds (r : Rounding) (k : Int) (c : Nat) : Bool :=
  let point := clearedDecimal c k r.exponent
  let low := clearedBinary r.lower k r.exponent
  let high := clearedBinary r.upper k r.exponent
  if r.closed then low ≤ point && point ≤ high else low < point && point < high

/-- The largest `c` with `c * 10 ^ k` not above the number. -/
def floor (r : Rounding) (k : Int) : Nat :=
  clearedBinary r.value k r.exponent / clearedDecimal 1 k r.exponent

/-- Of `c` and `c + 1`, the one nearer to the number on the grid `10 ^ k`. -/
def nearer (r : Rounding) (k : Int) (c : Nat) : Nat :=
  let twice := 2 * clearedBinary r.value k r.exponent
  let middle := clearedDecimal (2 * c + 1) k r.exponent
  if twice < middle then c else if middle < twice then c + 1 else c + c % 2

/-- The grid point next to the number that rounds to it, if there is one. -/
def hit? (r : Rounding) (k : Int) : Option Nat :=
  let c := r.floor k
  match r.holds k c, r.holds k (c + 1) with
  | true, true => some (r.nearer k c)
  | true, false => some c
  | false, true => some (c + 1)
  | false, false => none

/-- The first hit on the grids `10 ^ k`, `10 ^ (k - 1)`, and so on. -/
def search (r : Rounding) : Nat → Int → Shortest
  | 0, k => ⟨r.floor k, k⟩
  | steps + 1, k =>
    match r.hit? k with
    | some c => ⟨c, k⟩
    | none => search r steps (k - 1)

/-- A power of ten above the number, from its length in bits. -/
def top (r : Rounding) : Int :=
  ((r.value.log2 : Int) + r.exponent) * 30103 / 100000 + 2

end Rounding

/-- The shortest decimal that reads back as a positive number. -/
def Binary64.shortest (x : Binary64) : Shortest :=
  x.rounding.search 40 x.rounding.top

end WalletPage.Decimal
