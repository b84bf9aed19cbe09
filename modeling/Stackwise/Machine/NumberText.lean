import Stackwise.Decimal.Reader
import Stackwise.Text.Blank

/-!
# Numbers in text

What `int` and `float` read. Blanks around a number and underscores in it do not count.

* `NumberText.readInteger?`: a sign, for some bases a mark such as `0x`, and at least one digit of
  the base. Base 0 takes the base from the mark.
* `NumberText.readFloat?`: a decimal number, or a word for infinity or for what is no number.
* `NumberText.readCount?`: a count as format specifications write it.
-/

namespace Stackwise.NumberText

/-- The value of a digit in bases up to 36. -/
def digit? (c : Char) : Option Nat :=
  if c.isDigit then some (c.toNat - '0'.toNat)
  else if 'a' ≤ c && c ≤ 'z' then some (c.toNat - 'a'.toNat + 10)
  else if 'A' ≤ c && c ≤ 'Z' then some (c.toNat - 'A'.toNat + 10)
  else none

/-- The value of digits in a base, if all of them are digits of the base. -/
def digitsValue? (base : Nat) (cs : List Char) : Option Nat :=
  cs.foldlM (fun n c =>
    match digit? c with
    | some d => if d < base then some (n * base + d) else none
    | none => none) 0

/-- The base and the digits of an integer without its sign. -/
def splitBase? (base : Int) (cs : List Char) : Option (Nat × List Char) :=
  let plain : Option (Nat × List Char) :=
    if base == 0 then some (10, cs)
    else if 2 ≤ base && base ≤ 36 then some (base.toNat, cs)
    else none
  match cs with
  | '0' :: mark :: rest =>
    let marked (n : Nat) : Option (Nat × List Char) :=
      if base == 0 || base == n then some (n, rest) else plain
    match mark with
    | 'x' | 'X' => marked 16
    | 'o' | 'O' => marked 8
    | 'b' | 'B' => marked 2
    | _ => plain
  | _ => plain

/-- The characters that count: no blanks around, no underscores. -/
def significant (s : String) : List Char := (Text.trim s).toList.filter (· != '_')

/-- Reads an integer in a base. The magnitude must be that of a positive word, also after a
minus. -/
def readInteger? (s : String) (base : Int) : Option Int64 := do
  let (negative, cs) := Decimal.readSign (significant s)
  let (radix, digits) ← splitBase? base cs
  if digits.isEmpty then none
  else
    let n ← digitsValue? radix digits
    if n < 0x8000000000000000 then some (Int64.ofInt (if negative then -(n : Int) else n)) else none

/-- The float that a word stands for. -/
def word? (negative : Bool) : String → Option Double
  | "inf" | "infinity" => some (.infinity negative)
  | "nan" => some (.nan negative)
  | _ => none

/-- Reads a float. Before a word without underscores any number of signs may stand, and the first
of them is that of an infinity; what is not a number has then no sign. -/
def readFloat? (s : String) : Option Double :=
  let cs := (Text.trim s).toList.map Char.toLower
  let bare := cs.dropWhile fun c => c == '+' || c == '-'
  match word? (cs.head? == some '-') (String.ofList bare) with
  | some x => some (if x.isNaN then x.abs else x)
  | none =>
    let (negative, rest) := Decimal.readSign (cs.filter (· != '_'))
    match word? negative (String.ofList rest) with
    | some x => some x
    | none => Decimal.readUnsigned? negative rest

/-- Reads a count of at most 64 bits from its digits; no digits are no count. -/
def readCount? (cs : List Char) : Option Nat :=
  if cs.isEmpty || !cs.all Char.isDigit then none
  else
    let n := Decimal.digitsValue cs
    if n < 0x10000000000000000 then some n else none

end Stackwise.NumberText
