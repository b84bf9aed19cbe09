import Stackwise.Bytecode.Dialect
import Stackwise.Decimal.Layout
import Stackwise.Text.Utf8

/-!
# Code objects

The compiled form of a function: its instruction bytes and the tables that the instructions index
into. Code objects nest, because a function body is a constant of the body that defines it.

* **Content.** `CodeObject.sameContent` compares everything but the serial number, floats by value.
* **Identity.** Two code objects may have the same content; `serial` tells them apart.
-/

namespace Stackwise

/-! ## 1. Types -/

/-- A run of code units that belongs to one source line. -/
structure LineEntry where
  /-- First code unit. -/
  start : Nat
  /-- One past the last code unit. -/
  stop : Nat
  /-- Source line. -/
  line : Nat
  deriving DecidableEq, Hashable, Inhabited, Repr

/-- Properties of a code object, one per bit. -/
structure CodeFlags where
  /-- The bits. -/
  bits : Nat
  deriving DecidableEq, Hashable, Inhabited, Repr

mutual

/-- An entry of a constant table. -/
inductive Constant where
  | none
  | bool (b : Bool)
  | int (n : Int64)
  | float (x : Double)
  | str (s : String)
  | bytes (b : List UInt8)
  | tuple (items : List Constant)
  | ellipsis
  /-- The body of a nested function. -/
  | code (c : CodeObject)

/-- A compiled function or module. -/
structure CodeObject where
  /-- Tells apart objects of the same content. -/
  serial : Nat
  /-- The name of the function. -/
  name : String
  /-- The name with the names of the enclosing scopes. -/
  qualname : String
  /-- Whether the qualified name is a text of its own, and not the very text of the name. -/
  ownQualname : Bool
  /-- The file of the source. -/
  filename : String
  /-- The first source line. -/
  firstLine : Nat
  /-- The dialect of the instructions. -/
  dialect : Dialect
  /-- The instructions, two bytes per code unit. -/
  code : List UInt8
  /-- The constant table. -/
  constants : List Constant
  /-- The table of global and attribute names. -/
  names : List String
  /-- The names of the locals, parameters first. -/
  varnames : List String
  /-- The locals that inner functions capture. -/
  cellvars : List String
  /-- The captured variables of the enclosing scope. -/
  freevars : List String
  /-- Number of positional parameters. -/
  argCount : Nat
  /-- Number of parameters that cannot be given by keyword. -/
  posonlyCount : Nat
  /-- Number of parameters that can only be given by keyword. -/
  kwonlyCount : Nat
  /-- Properties. -/
  flags : CodeFlags
  /-- Source lines of the code units. -/
  lineTable : List LineEntry

end

instance : Inhabited Constant := ⟨.none⟩

/-! ## 2. Flags -/

namespace CodeFlags

/-- The flags of an ordinary function: fast locals, fresh for each call. -/
def function : CodeFlags := ⟨0x03⟩

/-- The bit of a function with surplus positional arguments. -/
def varargsBit : Nat := 0x04
/-- The bit of a function with surplus keyword arguments. -/
def varkeywordsBit : Nat := 0x08
/-- The bit of a generator. -/
def generatorBit : Nat := 0x20
/-- The bit of a function without captured variables. -/
def nofreeBit : Nat := 0x40
/-- The bit of a coroutine. -/
def coroutineBit : Nat := 0x80
/-- The bit of a coroutine built on a generator. -/
def iterableCoroutineBit : Nat := 0x100
/-- The bit of an asynchronous generator. -/
def asyncGeneratorBit : Nat := 0x200

/-- Whether a bit is set. -/
def has (f : CodeFlags) (bit : Nat) : Bool := f.bits &&& bit != 0

/-- Sets bits. -/
def add (f : CodeFlags) (bits : Nat) : CodeFlags := ⟨f.bits ||| bits⟩

end CodeFlags

/-! ## 3. Constants -/

namespace Constant

/-- The text, if the constant is one. -/
def asStr? : Constant → Option String
  | .str s => some s
  | _ => Option.none

/-- The keyword names of a tuple of texts. -/
def asNames? : Constant → Option (List String)
  | .tuple items => items.mapM asStr?
  | _ => Option.none

end Constant

mutual

/-- The diagnostic text of a constant. -/
def Constant.text : Constant → String
  | .none => "None"
  | .bool true => "True"
  | .bool false => "False"
  | .int n => toString n.toInt
  | .float x => Decimal.diagnostic x
  | .str s => Text.quoted s
  | .bytes b => "b" ++ Text.quoted (Text.Utf8.decodeLossy b)
  | .tuple [item] => "(" ++ item.text ++ ",)"
  | .tuple items => "(" ++ Constant.textList items ++ ")"
  | .ellipsis => "Ellipsis"
  | .code c => "<code object " ++ c.name ++ ">"

/-- The diagnostic texts of constants, separated by commas. -/
def Constant.textList : List Constant → String
  | [] => ""
  | [c] => c.text
  | c :: d :: cs => c.text ++ ", " ++ Constant.textList (d :: cs)

end

/-! ## 4. Content -/

mutual

/-- Whether two constants are equal, floats by value. -/
def Constant.same : Constant → Constant → Bool
  | .none, .none => true
  | .bool a, .bool b => a == b
  | .int a, .int b => a == b
  | .float a, .float b => a.equals b
  | .str a, .str b => a == b
  | .bytes a, .bytes b => a == b
  | .tuple a, .tuple b => Constant.sameList a b
  | .ellipsis, .ellipsis => true
  | .code a, .code b => a.sameContent b
  | _, _ => false

/-- Whether two lists of constants are equal entry by entry. -/
def Constant.sameList : List Constant → List Constant → Bool
  | [], [] => true
  | a :: as, b :: bs => a.same b && Constant.sameList as bs
  | _, _ => false

/-- Whether two code objects agree in content: in everything but what only tells objects apart. -/
def CodeObject.sameContent : CodeObject → CodeObject → Bool
  | ⟨_, n, q, _, f, l, d, code, cs, ns, vs, cv, fv, ac, po, ko, fl, lt⟩, o =>
    n == o.name && q == o.qualname && f == o.filename && l == o.firstLine
      && d == o.dialect && code == o.code && Constant.sameList cs o.constants
      && ns == o.names && vs == o.varnames && cv == o.cellvars && fv == o.freevars
      && ac == o.argCount && po == o.posonlyCount && ko == o.kwonlyCount
      && fl == o.flags && lt == o.lineTable

end

namespace CodeObject

/-- Whether two code objects are one object or agree in content. -/
def agrees (a b : CodeObject) : Bool := a.serial == b.serial || a.sameContent b

/-! ## 5. Queries -/

/-- A code object without instructions. -/
def blank (serial : Nat) (name filename : String) : CodeObject where
  serial := serial
  name := name
  qualname := name
  ownQualname := false
  filename := filename
  firstLine := 1
  dialect := default
  code := []
  constants := []
  names := []
  varnames := []
  cellvars := []
  freevars := []
  argCount := 0
  posonlyCount := 0
  kwonlyCount := 0
  flags := CodeFlags.function
  lineTable := []

instance : Inhabited CodeObject := ⟨blank 0 "" ""⟩

/-- Number of code units. -/
def units (c : CodeObject) : Nat := c.code.length / 2

/-- The source line of a code unit: that of the first entry that covers it. -/
def lineAt? (c : CodeObject) (offset : Nat) : Option Nat :=
  (c.lineTable.find? fun e => e.start ≤ offset && offset < e.stop).map (·.line)

/-- Whether the body is a generator. -/
def isGenerator (c : CodeObject) : Bool := c.flags.has CodeFlags.generatorBit

/-- Whether the body takes surplus positional arguments. -/
def hasVarargs (c : CodeObject) : Bool := c.flags.has CodeFlags.varargsBit

/-- Whether the body takes surplus keyword arguments. -/
def hasVarkeywords (c : CodeObject) : Bool := c.flags.has CodeFlags.varkeywordsBit

/-- The kind of body that cannot be compiled, judged by its flags. -/
def unsupportedKind? (c : CodeObject) : Option String :=
  if c.flags.has CodeFlags.asyncGeneratorBit then some "async generator"
  else if c.flags.has (CodeFlags.coroutineBit ||| CodeFlags.iterableCoroutineBit) then
    some "coroutine"
  else none

/-- Number of parameters that are named one by one. -/
def namedParams (c : CodeObject) : Nat := c.argCount + c.kwonlyCount

/-- Number of parameters, those for surplus arguments included. -/
def totalParams (c : CodeObject) : Nat :=
  c.namedParams + c.hasVarargs.toNat + c.hasVarkeywords.toNat

/-- Number of local slots. -/
def localCount (c : CodeObject) : Nat := c.varnames.length

/-- Number of closure slots: cells, then captured variables. -/
def closureSize (c : CodeObject) : Nat := c.cellvars.length + c.freevars.length

/-- The name of a closure slot. -/
def closureName? (c : CodeObject) (i : Nat) : Option String := (c.cellvars ++ c.freevars)[i]?

end CodeObject

end Stackwise
