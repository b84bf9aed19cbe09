import Stackwise.Bytecode.Code
import Stackwise.Decimal.Arithmetic
import Stackwise.Machine.Progression
import Stackwise.Types.TypeId

/-!
# Values

What a running program computes with. Immutable values carry their content; whatever can change is a
number into a table of the store.

* **Identity.** Texts, byte strings, tuples, slices, tracebacks and bound methods are objects of
  their own although they never change: each carries an `Ident`. `Value.place` is what the operator
  `is` looks at: two values are one object exactly if their places are equal. Scalars are their own
  place.
* **Type.** `Value.type` needs no store: exceptions and host objects carry their type.
-/

namespace Stackwise

/-! ## 1. Identities -/

/-- The identity of an immutable object. -/
inductive Ident where
  /-- The `n`-th object that the machine made. -/
  | made (n : Nat)
  /-- A constant of a code object; the path leads through nested tuples. -/
  | constant (code : Nat) (path : List Nat)
  /-- The name of a code object. -/
  | name (code : Nat)
  /-- The qualified name of a code object, where it is a text of its own. -/
  | qualname (code : Nat)
  /-- An entry of the name table of a code object. -/
  | symbol (code : Nat) (entry : Nat)
  deriving DecidableEq, Hashable, Inhabited, Repr

/-- One frame that an exception passed through. -/
structure TraceEntry where
  /-- The qualified name of the function. -/
  function : String
  /-- Offset in its program. -/
  offset : Nat
  /-- The source line. -/
  line : Option Nat
  deriving DecidableEq, Repr

/-! ## 2. Values -/

/-- A value of a running program. -/
inductive Value where
  | none
  | ellipsis
  | bool (b : Bool)
  | int (n : Int64)
  | float (x : Double)
  | str (id : Ident) (text : String)
  | bytes (id : Ident) (content : List UInt8)
  | tuple (id : Ident) (items : List Value)
  | list (ref : Nat)
  | dict (ref : Nat)
  | set (ref : Nat)
  | slice (id : Ident) (start stop step : Value)
  | range (terms : Progression)
  | iter (ref : Nat)
  /-- A class, which is called to make its instances. -/
  | classObject (t : TypeId)
  | exception (ref : Nat) (t : TypeId)
  | traceback (id : Ident) (entries : List TraceEntry)
  | function (ref : Nat)
  /-- A method together with the receiver on which it was looked up. -/
  | method (id : Ident) (receiver : Value) (nameId : Ident) (name : String)
  | builtin (nameId : Ident) (name : String)
  | generator (ref : Nat)
  | cell (ref : Nat)
  | code (c : CodeObject)
  /-- An object of the host. -/
  | native (ref : Nat) (t : TypeId)

instance : Inhabited Value := ⟨.none⟩

/-- An argument that is passed by name. -/
structure Keyword where
  /-- The identity of the name. -/
  id : Ident
  /-- The name. -/
  name : String
  /-- The argument. -/
  value : Value

namespace Value

/-- The class of a value. -/
def type : Value → TypeId
  | .none => TypeId.none
  | .ellipsis => TypeId.object
  | .bool _ => TypeId.bool
  | .int _ => TypeId.int
  | .float _ => TypeId.float
  | .str _ _ => TypeId.str
  | .bytes _ _ => TypeId.bytes
  | .tuple _ _ => TypeId.tuple
  | .list _ => TypeId.list
  | .dict _ => TypeId.dict
  | .set _ => TypeId.set
  | .slice _ _ _ _ => TypeId.slice
  | .range _ => TypeId.range
  | .iter _ => TypeId.iterator
  | .classObject _ => TypeId.type
  | .exception _ t => t
  | .traceback _ _ => TypeId.traceback
  | .function _ => TypeId.function
  | .method _ _ _ _ => TypeId.method
  | .builtin _ _ => TypeId.function
  | .generator _ => TypeId.generator
  | .cell _ => TypeId.cell
  | .code _ => TypeId.code
  | .native _ t => t

/-- Whether the value is the absent one. -/
def isNone : Value → Bool
  | .none => true
  | _ => false

/-- Truth values and integers as integers. -/
def asInt? : Value → Option Int64
  | .bool b => some (if b then 1 else 0)
  | .int n => some n
  | _ => Option.none

/-- Numbers as floats. -/
def asDouble? : Value → Option Double
  | .bool b => some (if b then .one else .zero)
  | .int n => some (Double.ofInt n.toInt)
  | .float x => some x
  | _ => Option.none

/-- The content of a text. -/
def asText? : Value → Option String
  | .str _ s => some s
  | _ => Option.none

mutual

/-- Whether a value can be a key: nothing that can change, also not inside a tuple. -/
def isHashable : Value → Bool
  | .list _ | .dict _ | .set _ | .slice _ _ _ _ => false
  | .tuple _ items => allHashable items
  | _ => true

/-- Whether all values can be keys. -/
def allHashable : List Value → Bool
  | [] => true
  | v :: vs => v.isHashable && allHashable vs

end

end Value

/-! ## 3. Places -/

/-- What makes a value the object that it is. -/
inductive Place where
  | none
  | ellipsis
  | bool (b : Bool)
  | int (n : Int64)
  | float (bits : UInt64)
  | range (terms : Progression)
  | classObject (t : TypeId)
  | builtin (name : String)
  | str (id : Ident)
  | bytes (id : Ident)
  | tuple (id : Ident)
  | slice (id : Ident)
  | traceback (id : Ident)
  | method (id : Ident)
  | list (ref : Nat)
  | dict (ref : Nat)
  | set (ref : Nat)
  | iter (ref : Nat)
  | exception (ref : Nat)
  | function (ref : Nat)
  | generator (ref : Nat)
  | cell (ref : Nat)
  | code (serial : Nat)
  | native (ref : Nat)
  deriving DecidableEq, Hashable, Repr

namespace Value

/-- The place of a value. -/
def place : Value → Place
  | .none => .none
  | .ellipsis => .ellipsis
  | .bool b => .bool b
  | .int n => .int n
  | .float x => .float x.bits
  | .str id _ => .str id
  | .bytes id _ => .bytes id
  | .tuple id _ => .tuple id
  | .list r => .list r
  | .dict r => .dict r
  | .set r => .set r
  | .slice id _ _ _ => .slice id
  | .range p => .range p
  | .iter r => .iter r
  | .classObject t => .classObject t
  | .exception r _ => .exception r
  | .traceback id _ => .traceback id
  | .function r => .function r
  | .method id _ _ _ => .method id
  | .builtin _ name => .builtin name
  | .generator r => .generator r
  | .cell r => .cell r
  | .code c => .code c.serial
  | .native r _ => .native r

/-- Whether two values are one object. -/
def same (a b : Value) : Bool := a.place == b.place

end Value

end Stackwise
