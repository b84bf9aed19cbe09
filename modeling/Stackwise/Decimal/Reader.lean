import Stackwise.Decimal.Binary64

/-!
# Reading decimal numbers

The grammar is a sign, digits with an optional point among or around them, and an optional
exponent; at least one digit must stand before the exponent, and at least one after its mark. The
value is the double nearest to the number written, a tie going to the even significand.
-/

namespace Stackwise.Decimal

/-- The value of a run of decimal digits. -/
def digitsValue (cs : List Char) : Nat :=
  cs.foldl (fun n c => n * 10 + (c.toNat - '0'.toNat)) 0

/-- Reads a sign: whether it is negative, and the rest. -/
def readSign : List Char → Bool × List Char
  | '-' :: cs => (true, cs)
  | '+' :: cs => (false, cs)
  | cs => (false, cs)

/-- Reads the exponent part: nothing, or a mark, a sign and at least one digit. -/
def readExponent? : List Char → Option Int
  | [] => some 0
  | c :: cs =>
    if c == 'e' || c == 'E' then
      let (negative, ds) := readSign cs
      if ds.isEmpty || !ds.all Char.isDigit then none
      else some (if negative then -(digitsValue ds : Int) else digitsValue ds)
    else none

/-- The double nearest to `digits * 10 ^ power`. A power far outside the range of doubles is
answered without computing it. -/
def nearestDecimal (negative : Bool) (digits : Nat) (power : Int) : Double :=
  let size : Int := ((toString digits).length : Int) + power
  if digits == 0 || size < -330 then Binary64.nearest negative 0 1
  else if 330 < size then Binary64.nearest negative (Nat.pow 10 330) 1
  else
    let (num, den) := Binary64.scale10 digits power
    Binary64.nearest negative num den

/-- Reads a decimal number without sign. -/
def readUnsigned? (negative : Bool) (cs : List Char) : Option Double :=
  let whole := cs.takeWhile Char.isDigit
  let rest := cs.dropWhile Char.isDigit
  let (fraction, tail) :=
    match rest with
    | '.' :: r => (r.takeWhile Char.isDigit, r.dropWhile Char.isDigit)
    | r => ([], r)
  if whole.isEmpty && fraction.isEmpty then none
  else (readExponent? tail).map fun e =>
    nearestDecimal negative (digitsValue (whole ++ fraction)) (e - fraction.length)

/-- Reads a decimal number. -/
def read? (s : String) : Option Double :=
  let (negative, cs) := readSign s.toList
  readUnsigned? negative cs

end Stackwise.Decimal
