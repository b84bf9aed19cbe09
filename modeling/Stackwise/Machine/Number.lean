import Stackwise.Body.Operator
import Stackwise.Decimal.Arithmetic
import Stackwise.Types.TypeId

/-!
# Numbers

The arithmetic of the machine. Integers have 64 bits, and each operator has a test of its own for a
result that does not fit: sums, differences and products are computed exactly, quotients and
remainders come from those toward zero, and a shift to the left is shifted back. Division and
remainder of integers go to the floor. Floats are doubles.

* `Integer.ofInt?`: the word of an exact result, if it fits.
* `Integer.floorQuotient?`, `Integer.floorRemainder?`, `Integer.shiftLeft?`, `Integer.shiftRight`,
  `Integer.power`: the operators that take more than one step.
* `Integer.binary`, `Integer.negate`, `Integer.invert`: the operators on integers.
* `Real.binary`: the operators on floats; those on bits have no float form.
* `ArithError`: every way in which an operator refuses its operands.
-/

namespace Stackwise

/-! ## 1. Results -/

/-- A result of arithmetic. -/
inductive Number where
  | int (n : Int64)
  | float (x : Double)
  deriving DecidableEq, Repr

/-- Why an operator has no result. -/
inductive ArithError where
  /-- The exact result has more than 64 bits. -/
  | overflow
  /-- Floor division or remainder of integers by zero. -/
  | integerByZero
  /-- Quotient of integers by zero. -/
  | quotientByZero
  /-- Quotient of floats by zero. -/
  | floatByZero
  /-- Floor division of floats by zero. -/
  | floatFloorByZero
  /-- Remainder of floats by zero. -/
  | floatModuloByZero
  /-- A negative power of zero. -/
  | zeroToNegativePower
  /-- A shift by a negative count. -/
  | negativeShift
  /-- A matrix product of integers. -/
  | integerMatrixProduct
  deriving DecidableEq, Repr

namespace ArithError

/-- The class of the exception. -/
def type : ArithError → TypeId
  | .overflow => TypeId.arithmeticError
  | .negativeShift => TypeId.valueError
  | .integerMatrixProduct => TypeId.typeError
  | _ => TypeId.zeroDivisionError

/-- The text of the exception. -/
def message : ArithError → String
  | .overflow => "integer overflow"
  | .integerByZero => "integer division or modulo by zero"
  | .quotientByZero => "division by zero"
  | .floatByZero => "float division by zero"
  | .floatFloorByZero => "float floor division by zero"
  | .floatModuloByZero => "float modulo by zero"
  | .zeroToNegativePower => "0.0 cannot be raised to a negative power"
  | .negativeShift => "negative shift count"
  | .integerMatrixProduct => "unsupported operand type(s) for @: 'int' and 'int'"

end ArithError

/-! ## 2. Integers -/

namespace Integer

/-- Whether an exact result fits into 64 bits. -/
def fits (n : Int) : Bool := -0x8000000000000000 ≤ n && n < 0x8000000000000000

/-- The word of an exact result, if it fits. -/
def ofInt? (n : Int) : Option Int64 := if fits n then some (Int64.ofInt n) else none

/-- A word, or the refusal of a result that has none. -/
def checked : Option Int64 → Except ArithError Number
  | some w => .ok (.int w)
  | none => .error .overflow

/-- An exact result, or the refusal of one that does not fit. -/
def exact (n : Int) : Except ArithError Number := checked (ofInt? n)

/-- Whether two words can be divided: not by zero, nor the least word by minus one. -/
def divisible (a b : Int64) : Bool := b != 0 && !(a == Int64.minValue && b == -1)

/-- The quotient to the floor. It is one less than the quotient toward zero if something is left
over and the signs differ. -/
def floorQuotient? (a b : Int64) : Option Int64 :=
  if divisible a b then
    some (if a % b != 0 && (a < 0) != (b < 0) then a / b - 1 else a / b)
  else none

/-- The remainder to the floor: that of the quotient toward zero, moved to the side of the
divisor. -/
def floorRemainder? (a b : Int64) : Option Int64 :=
  if divisible a b then
    some (if a % b != 0 && (a % b < 0) != (b < 0) then a % b + b else a % b)
  else none

/-- The largest exponent of a power of integers. -/
def maxExponent : Nat := 0xffffffff

/-- A power with an exponent that is not negative. Every base beyond -1, 0 and 1 has left the range
at the 64th power, so that no large number is ever computed. -/
def power (a : Int) (e : Nat) : Except ArithError Number :=
  if maxExponent < e then .error .overflow
  else if a.natAbs ≤ 1 then exact (if a < 0 && e % 2 == 0 then -a else if e == 0 then 1 else a)
  else if 64 ≤ e then .error .overflow
  else exact (Int.pow a e)

/-- A shift to the left by a count that is not negative. Zero can be shifted by any count; what is
lost shows when the result is shifted back. -/
def shiftLeft? (a count : Int64) : Option Int64 :=
  if a == 0 then some 0
  else if count < 64 && (a <<< count) >>> count == a then some (a <<< count)
  else none

/-- A shift to the right by a count that is not negative; after 64 places only the sign is left. -/
def shiftRight (a count : Int64) : Int64 :=
  if 64 ≤ count then if a < 0 then -1 else 0 else a >>> count

/-- The binary operators. -/
def binary (op : BinaryOp) (a b : Int64) : Except ArithError Number :=
  match op with
  | .add => exact (a.toInt + b.toInt)
  | .subtract => exact (a.toInt - b.toInt)
  | .multiply => exact (a.toInt * b.toInt)
  | .floorDivide => if b == 0 then .error .integerByZero else checked (floorQuotient? a b)
  | .modulo => if b == 0 then .error .integerByZero else checked (floorRemainder? a b)
  | .trueDivide =>
    if b == 0 then .error .quotientByZero
    else .ok (.float ((Double.ofInt a.toInt).divide (Double.ofInt b.toInt)))
  | .power =>
    if b < 0 then
      if a == 0 then .error .zeroToNegativePower
      else .ok (.float ((Double.ofInt a.toInt).power (Double.ofInt b.toInt)))
    else power a.toInt b.toInt.toNat
  | .lshift => if b < 0 then .error .negativeShift else checked (shiftLeft? a b)
  | .rshift => if b < 0 then .error .negativeShift else .ok (.int (shiftRight a b))
  | .and => .ok (.int (a &&& b))
  | .or => .ok (.int (a ||| b))
  | .xor => .ok (.int (a ^^^ b))
  | .matrixMultiply => .error .integerMatrixProduct

/-- The opposite number. -/
def negate (a : Int64) : Except ArithError Number := exact (-a.toInt)

/-- The number with every bit exchanged. -/
def invert (a : Int64) : Int64 := ~~~a

/-- The magnitude. -/
def magnitude (a : Int64) : Except ArithError Number := exact a.toInt.natAbs

/-- The word nearest to a float, toward zero; zero for what is no number. -/
def ofDouble (x : Double) : Int64 :=
  match Binary64.ofDouble x with
  | .nan => 0
  | .infinite negative => if negative then Int64.minValue else Int64.maxValue
  | .finite _ _ _ =>
    let n := (Binary64.trunc? x).getD 0
    Int64.ofInt (max (-0x8000000000000000) (min 0x7fffffffffffffff n))

end Integer

/-! ## 3. Floats -/

namespace Real

/-- The remainder with the sign of the divisor. -/
def floorRemainder (a b : Double) : Double :=
  let r := a.remainder b
  if !r.isZero && (r.less .zero != b.less .zero) then r.add b else r

/-- The binary operators; nothing for those that floats do not have. -/
def binary (op : BinaryOp) (a b : Double) : Except ArithError (Option Double) :=
  match op with
  | .add => .ok (some (a.add b))
  | .subtract => .ok (some (a.subtract b))
  | .multiply => .ok (some (a.multiply b))
  | .trueDivide => if b.isZero then .error .floatByZero else .ok (some (a.divide b))
  | .floorDivide => if b.isZero then .error .floatFloorByZero else .ok (some (a.divide b).floor)
  | .modulo => if b.isZero then .error .floatModuloByZero else .ok (some (floorRemainder a b))
  | .power =>
    if a.isZero && b.less .zero then .error .zeroToNegativePower else .ok (some (a.power b))
  | _ => .ok none

end Real

end Stackwise
