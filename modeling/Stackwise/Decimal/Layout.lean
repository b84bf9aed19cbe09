import Stackwise.Decimal.Digits
import Stackwise.Text.Quoted

/-!
# Layout of decimal numbers

How digits become text. Positional notation writes all places, whatever the exponent; scientific
notation puts the point after the first digit. The forms that the program writes:

* `Decimal.display`: the shortest digits in positional notation;
* `Decimal.diagnostic`: the same, in scientific notation from `10 ^ 16` on and below `10 ^ -4`, and
  with at least one decimal place otherwise;
* `Decimal.toPlaces`: a fixed number of decimal places;
* `Decimal.scientific`: a fixed number of decimal places in scientific notation;
* `Decimal.literal`: the shortest digits with a point among them, as programs write numbers.
-/

namespace Stackwise.Decimal

/-- Digits with the point `places` from the right, with at least one digit before it. -/
def point (digits places : Nat) : String :=
  let s := Text.padLeft (places + 1) '0' (toString digits)
  if places == 0 then s
  else String.ofList (s.toList.take (s.length - places)) ++ "."
    ++ String.ofList (s.toList.drop (s.length - places))

/-- Positional notation of `d`. -/
def positional (d : DecimalDigits) : String :=
  match d.exponent with
  | .ofNat k => if d.digits == 0 then "0" else (toString d.digits).pushn '0' k
  | .negSucc k => point d.digits (k + 1)

/-- Scientific notation of `d`: mantissa with all its digits, and the power of ten. -/
def mantissaAndPower (d : DecimalDigits) : String × Int :=
  let s := toString d.digits
  let power := d.exponent + (s.length : Int) - 1
  match s.toList with
  | [] => ("0", power)
  | c :: cs => (if cs.isEmpty then c.toString else c.toString ++ "." ++ String.ofList cs, power)

/-- The text of a double whose finite magnitude is written by `write`. -/
def withSign (x : Double) (write : Nat → Int → String) : String :=
  match Binary64.ofDouble x with
  | .nan => "NaN"
  | .infinite s => if s then "-inf" else "inf"
  | .finite s m e => if s then "-" ++ write m e else write m e

/-- The shortest digits that read back, in positional notation. -/
def display (x : Double) : String :=
  withSign x fun m e => if m == 0 then "0" else positional (DecimalDigits.shortest m e)

/-- The shortest digits that read back, with a point or an exponent. -/
def diagnostic (x : Double) : String :=
  withSign x fun m e =>
    if m == 0 then "0.0"
    else
      let d := DecimalDigits.shortest m e
      let (mantissa, power) := mantissaAndPower d
      if 16 ≤ power || power < -4 then mantissa ++ "e" ++ toString power
      else if 0 ≤ d.exponent then positional d ++ ".0"
      else positional d

/-- The text with a fixed number of decimal places. -/
def toPlaces (places : Nat) (x : Double) : String :=
  withSign x fun m e => point (DecimalDigits.fixed m e places).digits places

/-- The mantissa with a fixed number of decimal places, and the power of ten; a value that is not
finite has no power. -/
def scientific (places : Nat) (x : Double) : String × Option Int :=
  match Binary64.ofDouble x with
  | .finite s m e =>
    let d := DecimalDigits.significant m e places
    let mantissa := point d.digits places
    (if s then "-" ++ mantissa else mantissa, some (d.exponent + (places : Int)))
  | _ => (withSign x fun _ _ => "", none)

/-- The shortest digits that read back, in positional notation and with a point. -/
def literal (x : Double) : String :=
  if x.isNaN then "nan"
  else
    let s := display x
    if x.isInfinite || s.contains '.' then s else s ++ ".0"

end Stackwise.Decimal
