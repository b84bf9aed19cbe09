import Stackwise.Decimal.Binary64

/-!
# Decimal digits of a double

A positive double is written as a whole number of digits times a power of ten, in three ways:

* `shortest`: the fewest digits that read back as the same double, the nearest such number if
  there are several;
* `fixed`: rounded to a given number of decimal places, a tie going to the even digit;
* `significant`: rounded to a given number of significant digits, a tie going to the even digit.
-/

namespace Stackwise

/-- The number `digits * 10 ^ exponent`. -/
structure DecimalDigits where
  /-- The digits, as a whole number. -/
  digits : Nat
  /-- The power of ten of the last digit. -/
  exponent : Int
  deriving DecidableEq, Repr

namespace DecimalDigits

open Binary64 (scale2 scale10 roundDiv)

/-- Whether `10 ^ k ≤ num / den`. -/
def powerFits (num den : Nat) (k : Int) : Bool :=
  match k with
  | .ofNat k => den * Nat.pow 10 k ≤ num
  | .negSucc k => den ≤ num * Nat.pow 10 (k + 1)

/-- The greatest `k` with `10 ^ k ≤ num / den`: the power of ten of the leading digit. The number
of bits gives it up to two. -/
def leadingPower (num den : Nat) : Int :=
  let guess : Int := (((num.log2 : Int) - (den.log2 : Int)) * 30103) / 100000
  (([guess + 2, guess + 1, guess, guess - 1]).find? (powerFits num den)).getD (guess - 2)

/-- The quotient of two fractions. -/
def ratio (a b : Nat × Nat) : Nat × Nat := (a.1 * b.2, a.2 * b.1)

/-- Whether `x` lies between `lo` and `hi`, the ends included if `closed`. -/
def inside (closed : Bool) (lo hi x : Nat × Nat) : Bool :=
  if closed then lo.1 * x.2 ≤ x.1 * lo.2 && x.1 * hi.2 ≤ hi.1 * x.2
  else lo.1 * x.2 < x.1 * lo.2 && x.1 * hi.2 < hi.1 * x.2

/-- The multiple of `10 ^ power` that reads back as a double with the given bounds and is nearest
to its value `v`, a tie going up. -/
def onGrid? (closed : Bool) (lo hi v : Nat × Nat) (power : Int) : Option DecimalDigits :=
  let (num, den) := ratio v (scale10 1 power)
  let below := num / den
  let downFits := inside closed lo hi (scale10 below power)
  let upFits := inside closed lo hi (scale10 (below + 1) power)
  let nearerUp := den ≤ 2 * (num % den)
  if upFits && (nearerUp || !downFits) then some ⟨below + 1, power⟩
  else if downFits then some ⟨below, power⟩
  else none

/-- The fewest digits that read back as `m * 2 ^ e`. The bounds are half way to the neighbours;
the neighbour below a power of two is nearer. -/
def shortest (m : Nat) (e : Int) : DecimalDigits :=
  let v := scale2 (4 * m) (e - 2)
  let hi := scale2 (4 * m + 2) (e - 2)
  let lo :=
    if m == Binary64.leastSignificand && -1074 < e then scale2 (4 * m - 1) (e - 2)
    else scale2 (4 * m - 2) (e - 2)
  let closed := m % 2 == 0
  let top := leadingPower v.1 v.2
  let grids := (List.range 17).map fun n => top - Int.ofNat n
  match grids.findSome? (onGrid? closed lo hi v) with
  | some d => if d.digits == 10 then ⟨1, d.exponent + 1⟩ else d
  | none =>
    let (num, den) := ratio v (scale10 1 (top - 16))
    ⟨roundDiv num den, top - 16⟩

/-- `m * 2 ^ e` rounded to `places` decimal places. -/
def fixed (m : Nat) (e : Int) (places : Nat) : DecimalDigits :=
  let (num, den) := scale2 m e
  ⟨roundDiv (num * Nat.pow 10 places) den, -(places : Int)⟩

/-- `m * 2 ^ e` rounded to `places + 1` significant digits; zero has the leading power zero. -/
def significant (m : Nat) (e : Int) (places : Nat) : DecimalDigits :=
  if m == 0 then ⟨0, -(places : Int)⟩
  else
    let v := scale2 m e
    let power := leadingPower v.1 v.2 - (places : Int)
    let (num, den) := ratio v (scale10 1 power)
    let d := roundDiv num den
    if d == Nat.pow 10 (places + 1) then ⟨Nat.pow 10 places, power + 1⟩ else ⟨d, power⟩

end DecimalDigits

end Stackwise
