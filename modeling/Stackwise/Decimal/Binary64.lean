import Stackwise.Decimal.Double

/-!
# Double precision numbers as exact fractions

A finite double is a whole number times a power of two. This module takes a double apart into that
form and finds the double nearest to a fraction, so that decimal text and arithmetic are computed
exactly and rounded once.

* `Binary64.ofDouble` takes a double apart;
* `Binary64.roundDiv` divides to the nearest whole number, a tie going to the even one;
* `Binary64.nearest` is the double nearest to a fraction, a tie going to the even significand.
-/

namespace Stackwise

/-- A double, taken apart. -/
inductive Binary64 where
  /-- Not a number. -/
  | nan
  /-- An infinity. -/
  | infinite (negative : Bool)
  /-- The number `significand * 2 ^ exponent`, with its sign. -/
  | finite (negative : Bool) (significand : Nat) (exponent : Int)
  deriving DecidableEq, Repr

namespace Binary64

/-- The sign bit of a double. -/
def signBit : Nat := 0x8000000000000000

/-- The least significand of 53 bits. Below it numbers are written with fewer bits. -/
def leastSignificand : Nat := 0x10000000000000

/-- Takes a double apart. -/
def ofDouble (x : Double) : Binary64 :=
  let bits : Nat := x.bits.toNat
  let negative : Bool := signBit ≤ bits
  let biased : Nat := bits / leastSignificand % 2048
  let fraction : Nat := bits % leastSignificand
  if biased == 2047 then if fraction == 0 then .infinite negative else .nan
  else if biased == 0 then .finite negative fraction (-1074)
  else .finite negative (leastSignificand + fraction) ((biased : Int) - 1075)

/-- Divides to the nearest whole number; a tie goes to the even neighbour. -/
def roundDiv (num den : Nat) : Nat :=
  let q := num / den
  let r := num % den
  if 2 * r < den then q
  else if den < 2 * r then q + 1
  else q + q % 2

/-- The fraction `n * 2 ^ e` as numerator and denominator. -/
def scale2 (n : Nat) (e : Int) : Nat × Nat :=
  match e with
  | .ofNat k => (n * Nat.pow 2 k, 1)
  | .negSucc k => (n, Nat.pow 2 (k + 1))

/-- The fraction `n * 10 ^ e` as numerator and denominator. -/
def scale10 (n : Nat) (e : Int) : Nat × Nat :=
  match e with
  | .ofNat k => (n * Nat.pow 10 k, 1)
  | .negSucc k => (n, Nat.pow 10 (k + 1))

/-- The bits of the double nearest to `num / den`, without sign. -/
def nearestBits (num den : Nat) : Nat :=
  if num == 0 then 0
  else
    let guess : Int := (num.log2 : Int) - (den.log2 : Int)
    let fits : Bool := match guess with
      | .ofNat k => den * Nat.pow 2 k ≤ num
      | .negSucc k => den ≤ num * Nat.pow 2 (k + 1)
    let top := if fits then guess else guess - 1
    let e := max (top - 52) (-1074)
    let m := match e with
      | .ofNat k => roundDiv num (den * Nat.pow 2 k)
      | .negSucc k => roundDiv (num * Nat.pow 2 (k + 1)) den
    let (m, e) := if m == 2 * leastSignificand then (leastSignificand, e + 1) else (m, e)
    if 971 < e then 2047 * leastSignificand
    else if m < leastSignificand then m
    else (e + 1075).toNat * leastSignificand + (m - leastSignificand)

/-- The double nearest to `num / den`, with the given sign. -/
def nearest (negative : Bool) (num den : Nat) : Double :=
  let bits := nearestBits num den
  ⟨UInt64.ofNat (if negative then bits + signBit else bits)⟩

/-- The whole part of a double, toward zero; none unless it is finite. -/
def trunc? (x : Double) : Option Int :=
  match ofDouble x with
  | .finite negative m e =>
    let (num, den) := scale2 m e
    let n := Int.ofNat (num / den)
    some (if negative then -n else n)
  | _ => none

/-- Whether a double is a whole number. -/
def isWhole (x : Double) : Bool :=
  match ofDouble x with
  | .finite _ m e =>
    let (num, den) := scale2 m e
    num % den == 0
  | _ => false

end Binary64

end Stackwise
