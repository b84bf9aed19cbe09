import Stackwise.Decimal.Layout
import Stackwise.Machine.Store
import Stackwise.Types.Builtins

/-!
# Rendering

The text of values.

* `Value.reprWith`: how a value is written in a program, given the text of what lies in the store.
* `Store.repr`: the same in a store. A collection inside itself is shown by dots.
* `Store.display`: the text of `str`: a text is itself, and an exception its arguments.
* `Store.describe`: the text of diagnostics.
-/

namespace Stackwise

namespace Text

/-- How a program writes one character between the quotes `quote`. -/
def literalChar (quote c : Char) : String :=
  if c == '\\' then "\\\\"
  else if c == '\n' then "\\n"
  else if c == '\r' then "\\r"
  else if c == '\t' then "\\t"
  else if c == quote then "\\" ++ c.toString
  else if c.toNat < 0x20 || c.toNat == 0x7f then "\\x" ++ padLeft 2 '0' (hex c.toNat)
  else c.toString

/-- A text as programs write it: between single quotes, or between double ones if only single ones
occur in it. -/
def literal (s : String) : String :=
  let quote := if s.contains '\'' && !s.contains '"' then '"' else '\''
  quote.toString ++ String.join (s.toList.map (literalChar quote)) ++ quote.toString

/-- How a program writes one byte. -/
def literalByte (b : UInt8) : String :=
  let c := Char.ofNat b.toNat
  if c == '\\' then "\\\\"
  else if c == '\'' then "\\'"
  else if c == '\n' then "\\n"
  else if 0x20 ≤ b && b ≤ 0x7e then c.toString
  else "\\x" ++ padLeft 2 '0' (hex b.toNat)

/-- A byte string as programs write it. -/
def literalBytes (bs : List UInt8) : String := "b'" ++ String.join (bs.map literalByte) ++ "'"

/-- A text with every character outside ASCII written by number. -/
def ascii (s : String) : String :=
  String.join (s.toList.map fun c =>
    let n := c.toNat
    if n < 0x80 then c.toString
    else if n < 0x100 then "\\x" ++ padLeft 2 '0' (hex n)
    else if n < 0x10000 then "\\u" ++ padLeft 4 '0' (hex n)
    else "\\U" ++ padLeft 8 '0' (hex n))

end Text

namespace Value

mutual

/-- How a value is written; `below` writes what lies in the store. -/
def reprWith (m : TypeModel) (below : Value → String) : Value → String
  | .none => "None"
  | .ellipsis => "Ellipsis"
  | .bool b => if b then "True" else "False"
  | .int n => toString n.toInt
  | .float x => Decimal.literal x
  | .str _ s => Text.literal s
  | .bytes _ b => Text.literalBytes b
  | .tuple _ [v] => "(" ++ reprWith m below v ++ ",)"
  | .tuple _ items => "(" ++ ", ".intercalate (reprItems m below items) ++ ")"
  | .slice _ a b c =>
    "slice(" ++ reprWith m below a ++ ", " ++ reprWith m below b ++ ", " ++ reprWith m below c ++ ")"
  | .range p => p.text
  | .iter _ => "<iterator object>"
  | .classObject t => "<class '" ++ m.name t ++ "'>"
  | .traceback _ _ => "<traceback object>"
  | .method _ receiver _ name => "<bound method " ++ name ++ " of " ++ reprWith m below receiver ++ ">"
  | .builtin _ name => "<built-in function " ++ name ++ ">"
  | .cell _ => "<cell>"
  | .code c => "<code object " ++ c.name ++ ">"
  | v => below v

/-- How values are written. -/
def reprItems (m : TypeModel) (below : Value → String) : List Value → List String
  | [] => []
  | v :: vs => reprWith m below v :: reprItems m below vs

end

end Value

namespace Store

/-- How a value is written, looking through at most `fuel` objects inside each other; those in
`inside` are being written already. -/
def reprWithin (m : TypeModel) (s : Store) : Nat → List Place → Value → String
  | 0, _, v => v.reprWith m fun _ => "..."
  | fuel + 1, inside, v =>
    v.reprWith m fun v =>
      let items (vs : List Value) : String :=
        ", ".intercalate (vs.map (s.reprWithin m fuel (v.place :: inside)))
      let enclosed : Bool := inside.contains v.place
      match v with
      | .list r => if enclosed then "[...]" else "[" ++ items (s.lists.get r).toList ++ "]"
      | .set r =>
        if enclosed then "\x7b...\x7d"
        else
          match s.sets.get r with
          | [] => "set()"
          | vs => "\x7b" ++ items vs ++ "\x7d"
      | .dict r =>
        if enclosed then "\x7b...\x7d"
        else
          let entry (p : Value × Value) : String :=
            s.reprWithin m fuel (v.place :: inside) p.1 ++ ": "
              ++ s.reprWithin m fuel (v.place :: inside) p.2
          "\x7b" ++ ", ".intercalate ((s.dicts.get r).map entry) ++ "\x7d"
      | .exception r _ =>
        let e := s.exceptions.get r
        e.typeName ++ "(" ++ ", ".intercalate (e.args.map (s.reprWithin m fuel inside)) ++ ")"
      | .function r => "<function " ++ (s.functions.get r).qualname ++ ">"
      | .generator r => "<generator object " ++ (s.generators.get r).name ++ ">"
      | .native r _ => (s.natives.get r).repr
      | _ => ""

/-- How a value is written. -/
def repr (m : TypeModel) (s : Store) (v : Value) : String := s.reprWithin m s.size [] v

/-- How values are written, separated by commas. -/
def reprs (m : TypeModel) (s : Store) (vs : List Value) : String :=
  ", ".intercalate (vs.map (s.repr m))

/-- The text of a value, looking through at most `fuel` exceptions inside each other. -/
def displayWithin (m : TypeModel) (s : Store) : Nat → Value → String
  | 0, v => s.repr m v
  | fuel + 1, v =>
    match v with
    | .str _ t => t
    | .exception r _ =>
      match (s.exceptions.get r).args with
      | [] => ""
      | [single] => s.displayWithin m fuel single
      | many => s.repr m (.tuple default many)
    | v => s.repr m v

/-- The text of a value. -/
def display (m : TypeModel) (s : Store) (v : Value) : String := s.displayWithin m s.size v

/-- The diagnostic text of a value, looking through at most `fuel` exceptions inside each other.
Classes are named as the builtin model names them. -/
def describeWithin (s : Store) : Nat → Value → String
  | 0, _ => ""
  | fuel + 1, v =>
    match v with
    | .str _ t => Text.quoted t
    | .exception r _ =>
      let e := s.exceptions.get r
      match e.args with
      | [] => e.typeName
      | [.str _ message] => e.typeName ++ ": " ++ message
      | args => e.typeName ++ "[" ++ ", ".intercalate (args.map (s.describeWithin fuel)) ++ "]"
    | v => s.repr TypeModel.withBuiltins v

/-- The diagnostic text of a value. -/
def describe (s : Store) (v : Value) : String := s.describeWithin s.size v

end Store

end Stackwise
