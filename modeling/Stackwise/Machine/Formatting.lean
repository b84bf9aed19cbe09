import Stackwise.Machine.FormatSpec
import Stackwise.Machine.Protocol

/-!
# Formatting

The texts of `format` and of the operator `%`.

* `format`: a value under a format specification.
* `Template.pieces`: a format string cut at its conversions.
* `percentFormat`: the pieces with the arguments put in.
-/

namespace Stackwise.Machine

/-! ## 1. Format specifications -/

/-- The kinds in which integers are written by their digits. -/
def isIntegerKind : Option Char → Bool
  | none => true
  | some c => c == 'd' || c == 'x' || c == 'X' || c == 'o' || c == 'b' || c == 'n'

/-- Raises the exception of a specification that a value does not have. -/
def badSpec {α : Type} (v : Value) (spec : String) : Action α := do
  valueError ("Invalid format specifier '" ++ spec ++ "' for object of type '" ++ (← typeName v)
    ++ "'")

/-- A number as a float under a specification. -/
def formatFloat (v : Value) (spec : String) (f : FormatSpec) (x : Double) : Action String := do
  match f.floatBody? x.abs with
  | some body => return f.lay true (x.isNegative && !x.isZero) body
  | none => badSpec v spec

/-- A value under a specification; the empty one asks for the text of the value. -/
def format (v : Value) (spec : String) : Action String := do
  if spec.isEmpty then display v
  else
    match FormatSpec.parse? spec with
    | none => badSpec v spec
    | some f =>
      let asText : Action String := return f.lay false false (← display v)
      match v with
      | .str _ t =>
        if f.kind.isNone || f.kind == some 's' then
          let body := match f.precision with
            | some p => String.ofList (t.toList.take p)
            | none => t
          return f.lay false false body
        else badSpec v spec
      | .float x => formatFloat v spec f x
      | .native _ _ => asText
      | v =>
        match v.asInt? with
        | some n =>
          if isIntegerKind f.kind then
            return f.lay true (n < 0) (f.integerBody n.toInt.natAbs)
          else formatFloat v spec f (Double.ofInt n.toInt)
        | none => if f.kind.isNone then asText else badSpec v spec

/-! ## 2. Conversions -/

/-- A piece of a format string. -/
inductive Piece where
  | literal (c : Char)
  /-- A conversion with what stands between the mark and its letter. -/
  | conversion (flags : List Char) (letter : Char)
  /-- A mark at the end of the string. -/
  | incomplete
  deriving DecidableEq, Repr

namespace Template

/-- Whether a character can stand between the mark of a conversion and its letter. -/
def isFlag (c : Char) : Bool := c.isDigit || c == '.' || c == '-' || c == '+' || c == ' '

/-- The pieces of a format string; `flags` is there after a mark, reversed. -/
def piecesFrom : Option (List Char) → List Char → List Piece
  | none, [] => []
  | some _, [] => [.incomplete]
  | none, c :: cs => if c == '%' then piecesFrom (some []) cs else .literal c :: piecesFrom none cs
  | some flags, c :: cs =>
    if isFlag c then piecesFrom (some (c :: flags)) cs
    else .conversion flags.reverse c :: piecesFrom none cs

/-- The pieces of a format string. -/
def pieces (s : String) : List Piece := piecesFrom none s.toList

/-- The decimal places that flags ask for. -/
def places (flags : List Char) : Nat :=
  match flags.dropWhile (· != '.') with
  | '.' :: '+' :: digits => (NumberText.readCount? digits).getD 6
  | '.' :: digits => (NumberText.readCount? digits).getD 6
  | _ => 6

/-- The least width that flags ask for. -/
def width (flags : List Char) : Nat :=
  (NumberText.readCount? (flags.dropWhile fun c => c == '-' || c == '+' || c == ' ')).getD 0

/-- A converted piece, padded as its flags ask. -/
def pad (flags : List Char) (piece : String) : String :=
  let blanks := "".pushn ' ' (width flags - piece.length)
  if flags.head? == some '-' then piece ++ blanks else blanks ++ piece

end Template

/-- The text of one argument under a conversion letter. -/
def convert (flags : List Char) (letter : Char) (v : Value) : Action String := do
  match letter with
  | 's' => display v
  | 'r' => repr v
  | 'f' =>
    match v.asDouble? with
    | some x => return Decimal.toPlaces (Template.places flags) x
    | none => typeError "must be real number"
  | _ =>
    match v, v.asInt? with
    | .float x, _ => return toString (Integer.ofDouble x).toInt
    | _, some n => return toString n.toInt
    | _, none => typeError ("%d format: a number is required, not " ++ (← typeName v))

/-- Whether a conversion letter takes an argument. -/
def takesArgument (letter : Char) : Bool :=
  letter == 's' || letter == 'r' || letter == 'd' || letter == 'i' || letter == 'f'

/-- The text of pieces with the arguments put in, one after the other. -/
def fill : List Piece → List Value → Action String
  | [], [] => return ""
  | [], _ :: _ => typeError "not all arguments converted during string formatting"
  | .literal c :: pieces, args => return c.toString ++ (← fill pieces args)
  | .incomplete :: _, _ => valueError "incomplete format"
  | .conversion flags '%' :: pieces, args =>
    return Template.pad flags "%" ++ (← fill pieces args)
  | .conversion flags letter :: pieces, args => do
    if !takesArgument letter then
      valueError ("unsupported format character '" ++ letter.toString ++ "'")
    else
      match args with
      | [] => typeError "not enough arguments for format string"
      | v :: args =>
        let piece ← convert flags letter v
        let kept := if letter == 'f' then flags.takeWhile (· != '.') else flags
        return Template.pad kept piece ++ (← fill pieces args)

/-- A format string with arguments: the items of a tuple, or one value. -/
def percentFormat (template : String) (args : Value) : Action String :=
  fill (Template.pieces template) (match args with
    | .tuple _ items => items
    | v => [v])

end Stackwise.Machine
