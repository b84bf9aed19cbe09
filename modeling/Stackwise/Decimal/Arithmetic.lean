import Stackwise.Decimal.Binary64

/-!
# Arithmetic of doubles

Every operation computes the exact result in whole numbers and takes the double nearest to it. If
an operand is not a number, the operation hands it on; if there is no result, as for the quotient
of two infinities, the answer is `Double.indefinite`.

* `Double.add`, `subtract`, `multiply`, `divide`: the four operations.
* `Double.remainder`: the remainder after division toward zero; it is exact.
* `Double.floor`: the greatest whole number that is not greater.
* `Double.power`, `Double.log10`: powers and logarithms of numbers, from the machine's library.
-/

namespace Stackwise.Double

open Binary64 (scale2 nearest)

/-! ## 1. Conversions -/

/-- The double nearest to a whole number. -/
def ofInt (n : Int) : Double := nearest (decide (n < 0)) n.natAbs 1

/-- A whole number with a sign of its own. -/
def signed (negative : Bool) (n : Nat) : Int := if negative then -(n : Int) else n

/-- A number of the machine's library, which has one word for all that are not numbers. -/
def ofFloat (x : Float) : Double := if x.isNaN then indefinite else ⟨x.toBits⟩

/-- The number as the machine's library takes it. -/
def toFloat (x : Double) : Float := Float.ofBits x.bits

/-! ## 2. Sums -/

/-- The sum of two numbers. A sum of zero is negative only if both operands are. -/
def addNumbers (a b : Double) : Double :=
  match Binary64.ofDouble a, Binary64.ofDouble b with
  | .infinite s, .infinite t => if s == t then a else indefinite
  | .infinite _, _ => a
  | _, .infinite _ => b
  | .finite s m e, .finite t n f =>
    let low := min e f
    let sum := signed s (m * Nat.pow 2 (e - low).toNat) + signed t (n * Nat.pow 2 (f - low).toNat)
    let (num, den) := scale2 sum.natAbs low
    nearest (if sum == 0 then s && t else decide (sum < 0)) num den
  | _, _ => indefinite

/-- The sum. -/
def add (a b : Double) : Double := (nanOf? a b).getD (addNumbers a b)

/-- The difference. -/
def subtract (a b : Double) : Double := (nanOf? a b).getD (addNumbers a b.negate)

/-! ## 3. Products and quotients -/

/-- The product of two numbers. -/
def multiplyNumbers (a b : Double) : Double :=
  let negative := a.isNegative != b.isNegative
  match Binary64.ofDouble a, Binary64.ofDouble b with
  | .finite _ m e, .finite _ n f =>
    let (num, den) := scale2 (m * n) (e + f)
    nearest negative num den
  | _, _ => if a.isZero || b.isZero then indefinite else infinity negative

/-- The product. -/
def multiply (a b : Double) : Double := (nanOf? a b).getD (multiplyNumbers a b)

/-- The quotient of two numbers. A number by zero is infinite. -/
def divideNumbers (a b : Double) : Double :=
  let negative := a.isNegative != b.isNegative
  match Binary64.ofDouble a, Binary64.ofDouble b with
  | .infinite _, .infinite _ => indefinite
  | .infinite _, _ => infinity negative
  | _, .infinite _ => nearest negative 0 1
  | .finite _ m e, .finite _ n f =>
    if n == 0 then if m == 0 then indefinite else infinity negative
    else nearest negative (m * Nat.pow 2 (e - f).toNat) (n * Nat.pow 2 (f - e).toNat)
  | _, _ => indefinite

/-- The quotient. -/
def divide (a b : Double) : Double := (nanOf? a b).getD (divideNumbers a b)

/-- The remainder of two numbers, with the sign of the first. -/
def remainderNumbers (a b : Double) : Double :=
  match Binary64.ofDouble a, Binary64.ofDouble b with
  | .finite s m e, .finite _ n f =>
    if n == 0 then indefinite
    else
      let low := min e f
      let r := (m * Nat.pow 2 (e - low).toNat) % (n * Nat.pow 2 (f - low).toNat)
      let (num, den) := scale2 r low
      nearest s num den
  | .finite _ _ _, .infinite _ => a
  | _, _ => indefinite

/-- The remainder after division toward zero. -/
def remainder (a b : Double) : Double := (nanOf? a b).getD (remainderNumbers a b)

/-! ## 4. Whole numbers -/

/-- The greatest whole number that is not greater; a zero keeps its sign, and so do words that are
not finite. -/
def floor (x : Double) : Double :=
  match Binary64.ofDouble x with
  | .finite s m e =>
    let (num, den) := scale2 m e
    if num % den == 0 then x
    else if s then nearest true (num / den + 1) 1
    else nearest false (num / den) 1
  | _ => if x.isNaN then x.quiet else x

/-- Whether a number is whole and odd. -/
def isOdd (x : Double) : Bool :=
  match Binary64.ofDouble x with
  | .finite _ m e =>
    let (num, den) := scale2 m e
    num % den == 0 && num / den % 2 == 1
  | _ => false

/-! ## 5. Powers and logarithms -/

/-- A power. The zeroth power of everything and every power of one is one; a signaling operand is
handed on all the same. An odd power of what is not a number and has its sign bit set loses it. -/
def power (a b : Double) : Double :=
  if b.isZero then if a.isSignaling then a.quiet else one
  else if a == one then if b.isSignaling then b.quiet else one
  else if a.isNaN && a.isNegative && b.isOdd then a.quiet.negate
  else (nanOf? a b).getD (ofFloat (a.toFloat.pow b.toFloat))

/-- The decimal logarithm. -/
def log10 (x : Double) : Double := if x.isNaN then x.quiet else ofFloat x.toFloat.log10

end Stackwise.Double
