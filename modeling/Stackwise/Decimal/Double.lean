/-!
# Doubles

A double precision number is its word of 64 bits: the sign, eleven bits of exponent and 52 bits of
fraction. A word above the infinity, apart from the sign, is not a number. Such words differ in
sign and payload, and a program can tell them apart, so a double is kept as its word and is never
reduced to one representative.

* `Double.isNaN`, `Double.isNegative`, …: the classes of words.
* `Double.negate`, `Double.abs`: change the sign bit and nothing else.
* `Double.nanOf?`: the operand that an operation hands on when one of them is not a number.
* `Double.compare?`: the order by value; what is not a number has no place in it.
-/

namespace Stackwise

/-- A double precision number, as its word. Two doubles are equal as words; for equality by value
there is `Double.equals`. -/
structure Double where
  /-- The word. -/
  bits : UInt64
  deriving DecidableEq, Repr, Inhabited, Hashable

namespace Double

/-! ## 1. Words -/

/-- The bit of the sign. -/
def signBit : UInt64 := 0x8000000000000000

/-- All bits but the sign. -/
def magnitudeMask : UInt64 := 0x7fffffffffffffff

/-- The magnitude of an infinity; every greater magnitude is not a number. -/
def infiniteMagnitude : UInt64 := 0x7ff0000000000000

/-- The bit that makes what is not a number quiet. -/
def quietBit : UInt64 := 0x0008000000000000

/-- The word without its sign. -/
def magnitude (x : Double) : UInt64 := x.bits &&& magnitudeMask

/-- Whether the sign bit is set, also in a zero and in what is not a number. -/
def isNegative (x : Double) : Bool := x.bits &&& signBit != 0

/-- Whether a word is not a number. -/
def isNaN (x : Double) : Bool := infiniteMagnitude < x.magnitude

/-- Whether a word is an infinity. -/
def isInfinite (x : Double) : Bool := x.magnitude == infiniteMagnitude

/-- Whether a word is a number and no infinity. -/
def isFinite (x : Double) : Bool := x.magnitude < infiniteMagnitude

/-- Whether a word is one of the two zeros. -/
def isZero (x : Double) : Bool := x.magnitude == 0

/-! ## 2. Constants -/

/-- Zero, without sign. -/
def zero : Double := ⟨0⟩

/-- One. -/
def one : Double := ⟨0x3ff0000000000000⟩

/-- An infinity. -/
def infinity (negative : Bool) : Double :=
  ⟨if negative then infiniteMagnitude ||| signBit else infiniteMagnitude⟩

/-- The quiet word without payload that text for what is not a number stands for. -/
def nan (negative : Bool) : Double :=
  ⟨if negative then infiniteMagnitude ||| quietBit ||| signBit else infiniteMagnitude ||| quietBit⟩

/-- The result of an operation that has none, such as the difference of equal infinities. Its sign
bit is set. -/
def indefinite : Double := nan true

/-! ## 3. Signs -/

/-- The number with the other sign; also a zero, and what is not a number. -/
def negate (x : Double) : Double := ⟨x.bits ^^^ signBit⟩

/-- The number without its sign. -/
def abs (x : Double) : Double := ⟨x.magnitude⟩

/-! ## 4. What is not a number -/

/-- The quiet form of what is not a number. -/
def quiet (x : Double) : Double := ⟨x.bits ||| quietBit⟩

/-- Whether a word is not a number and not quiet. -/
def isSignaling (x : Double) : Bool := x.isNaN && x.bits &&& quietBit == 0

/-- What an operation hands on if an operand is not a number: the first such operand, quiet. -/
def nanOf? (a b : Double) : Option Double :=
  if a.isNaN then some a.quiet
  else if b.isNaN then some b.quiet
  else none

/-! ## 5. Order -/

/-- The place of a number among the others; both zeros have the same. -/
def key (x : Double) : Int :=
  if x.isNegative then -(x.magnitude.toNat : Int) else x.magnitude.toNat

/-- Equality by value: both zeros are equal, and what is not a number equals nothing. -/
def equals (a b : Double) : Bool := !a.isNaN && !b.isNaN && a.key == b.key

/-- Whether one number is less than another. -/
def less (a b : Double) : Bool := !a.isNaN && !b.isNaN && decide (a.key < b.key)

/-- The order by value; nothing if an operand is not a number. -/
def compare? (a b : Double) : Option Ordering :=
  if a.isNaN || b.isNaN then none else some (compare a.key b.key)

end Double

end Stackwise
