import Stackwise.Decimal.Layout
import Stackwise.Machine.Number
import Stackwise.Machine.NumberText

/-!
# Format specifications

The little language after the colon of a replacement field:
`[[fill]align][sign][0][width][,][.precision][kind]`.

* `FormatSpec.parse?` reads a specification, and `FormatSpec.text` writes it.
* `FormatSpec.integerBody` and `FormatSpec.floatBody?` write a magnitude.
* `FormatSpec.lay` puts sign, body and padding together.
-/

namespace Stackwise

/-- A format specification. -/
structure FormatSpec where
  /-- The padding character; only given beside an alignment. -/
  fill : Option Char := none
  /-- Where the body stands in the field. -/
  align : Option Char := none
  /-- What stands before a number that is not negative. -/
  sign : Option Char := none
  /-- Whether a number is padded with zeros behind its sign. -/
  zero : Bool := false
  /-- The least width of the field. -/
  width : Nat := 0
  /-- Whether thousands are separated. -/
  grouping : Bool := false
  /-- Decimal places, digits, or characters of a text. -/
  precision : Option Nat := none
  /-- How the value is written. -/
  kind : Option Char := none
  deriving DecidableEq, Repr

namespace FormatSpec

/-! ## 1. Reading and writing -/

/-- Whether a character is an alignment. -/
def isAlign (c : Char) : Bool := c == '<' || c == '>' || c == '^' || c == '='

/-- Whether a character is a sign. -/
def isSign (c : Char) : Bool := c == '+' || c == '-' || c == ' '

/-- Reads the alignment, with or without a fill before it. -/
def readAlign : List Char → Option Char × Option Char × List Char
  | [] => (none, none, [])
  | [c] => if isAlign c then (none, some c, []) else (none, none, [c])
  | c :: d :: rest =>
    if isAlign d then (some c, some d, rest)
    else if isAlign c then (none, some c, d :: rest)
    else (none, none, c :: d :: rest)

/-- Reads a character of a class, if it stands there. -/
def readOne (p : Char → Bool) : List Char → Option Char × List Char
  | [] => (none, [])
  | c :: rest => if p c then (some c, rest) else (none, c :: rest)

/-- Reads a precision; a point must be followed by a count. -/
def readPrecision? : List Char → Option (Option Nat × List Char)
  | '.' :: rest =>
    (NumberText.readCount? (rest.takeWhile Char.isDigit)).map fun n =>
      (some n, rest.dropWhile Char.isDigit)
  | cs => some (none, cs)

/-- Reads a specification; nothing may be left over. -/
def parseChars? (cs : List Char) : Option FormatSpec := do
  let (fill, align, cs) := readAlign cs
  let (sign, cs) := readOne isSign cs
  let (zero, cs) := readOne (· == '0') cs
  let width := (NumberText.readCount? (cs.takeWhile Char.isDigit)).getD 0
  let (comma, cs) := readOne (· == ',') (cs.dropWhile Char.isDigit)
  let (precision, cs) ← readPrecision? cs
  let (kind, cs) := readOne (fun _ => true) cs
  if cs.isEmpty then
    some { fill, align, sign, zero := zero.isSome, width, grouping := comma.isSome, precision, kind }
  else none

/-- Reads a specification. -/
def parse? (s : String) : Option FormatSpec := parseChars? s.toList

/-- The characters of a specification; a width of zero is not written. -/
def chars (f : FormatSpec) : List Char :=
  f.fill.toList ++ f.align.toList ++ f.sign.toList ++ (if f.zero then ['0'] else [])
    ++ (if f.width == 0 then [] else (toString f.width).toList)
    ++ (if f.grouping then [','] else [])
    ++ (match f.precision with
      | some p => '.' :: (toString p).toList
      | none => [])
    ++ f.kind.toList

/-- The text of a specification. -/
def text (f : FormatSpec) : String := String.ofList f.chars

/-! ## 2. Bodies -/

/-- The characters with a comma before every third from the end. -/
def groupThousands (s : String) : String :=
  let cs := s.toList
  String.ofList (cs.zipIdx.flatMap fun (c, i) =>
    if 0 < i && (cs.length - i) % 3 == 0 then [',', c] else [c])

/-- Groups the part before the point. -/
def groupWhole (s : String) : String :=
  let whole := s.toList.takeWhile (· != '.')
  let rest := s.toList.dropWhile (· != '.')
  groupThousands (String.ofList whole) ++ String.ofList rest

/-- The digits of a magnitude. -/
def integerBody (f : FormatSpec) (n : Nat) : String :=
  match f.kind with
  | some 'x' => Text.hex n
  | some 'X' => (Text.hex n).toUpper
  | some 'o' => String.ofList (Nat.toDigits 8 n)
  | some 'b' => String.ofList (Nat.toDigits 2 n)
  | _ => if f.grouping then groupThousands (toString n) else toString n

/-- An exponent: a sign and at least two digits. What is not finite has the exponent zero. -/
def exponentText (power : Option Int) : String :=
  let e := power.getD 0
  (if e < 0 then "-" else "+") ++ Text.padLeft 2 '0' (toString e.natAbs)

/-- Scientific notation. -/
def exponentForm (x : Double) (places : Nat) (mark : String) : String :=
  let (mantissa, power) := Decimal.scientific places x
  mantissa ++ mark ++ exponentText power

/-- A number without the zeros at the end of its places. -/
def withoutZeros (s : String) : String :=
  if s.contains '.' then
    let cs := s.toList.reverse.dropWhile (· == '0')
    String.ofList (cs.dropWhile (· == '.')).reverse
  else s

/-- Positional notation for moderate magnitudes, scientific notation for others, with a number of
significant digits in both. -/
def generalForm (x : Double) (digits : Nat) : String :=
  let p := max digits 1
  if x.isZero || !x.isFinite then Decimal.literal x
  else
    let e := (Integer.ofDouble x.abs.log10.floor).toInt
    if e < -4 || (p : Int) ≤ e then
      let (mantissa, power) := Decimal.scientific (p - 1) x
      withoutZeros mantissa ++ "e" ++ exponentText power
    else withoutZeros (Decimal.toPlaces ((p : Int) - 1 - e).toNat x)

/-- The text of a magnitude that is not negative, for the kinds that floats have. -/
def floatBody? (f : FormatSpec) (x : Double) : Option String :=
  let p := f.precision.getD 6
  let body : Option String := match f.kind with
    | some 'f' | some 'F' => some (Decimal.toPlaces p x)
    | some 'e' => some (exponentForm x p "e")
    | some 'E' => some (exponentForm x p "E")
    | some '%' => some (Decimal.toPlaces p (x.multiply (Double.ofInt 100)) ++ "%")
    | some 'g' | some 'G' => some (generalForm x p)
    | none =>
      match f.precision with
      | some p => some (generalForm x p)
      | none => some (Decimal.literal x)
    | _ => none
  if f.grouping then body.map groupWhole else body

/-! ## 3. Fields -/

/-- What stands before the body. -/
def signText (f : FormatSpec) (numeric negative : Bool) : String :=
  if negative then "-"
  else if numeric then
    match f.sign with
    | some '+' => "+"
    | some ' ' => " "
    | _ => ""
  else ""

/-- Sign and body, padded to the width of the field. -/
def lay (f : FormatSpec) (numeric negative : Bool) (body : String) : String :=
  let sign := f.signText numeric negative
  let pad := f.width - (sign.length + body.length)
  let (fill, align) :=
    if f.zero && f.align.isNone && numeric then ('0', '=')
    else (f.fill.getD ' ', f.align.getD (if numeric then '>' else '<'))
  let padding (n : Nat) : String := "".pushn fill n
  if align == '<' then sign ++ body ++ padding pad
  else if align == '^' then padding (pad / 2) ++ sign ++ body ++ padding (pad - pad / 2)
  else if align == '=' then sign ++ padding pad ++ body
  else padding pad ++ sign ++ body

end FormatSpec

end Stackwise
