import Stackwise.Analysis.Slot
import Stackwise.Body.Operator
import Stackwise.Bytecode.Code
import Stackwise.Bytecode.Comparison
import Stackwise.Compile.Config

/-!
# Typing single operations

A typer answers what an operation on slots of known types gives: which overload a method call, an
operator or a call resolves to, and what a constant, a global name or an attribute is. Where the
settings switch narrowing off, nothing is resolved.
-/

namespace Stackwise

/-- What the typing of a function's operations reads. -/
structure Typer where
  /-- The types. -/
  model : TypeModel
  /-- The constants of the function. -/
  constants : List Constant
  /-- The settings. -/
  config : Config
  deriving Inhabited

/-- A method call that resolves to one overload. -/
structure Resolved where
  /-- The type on which the method was looked up. -/
  receiver : TypeId
  /-- The method. -/
  name : String
  /-- The overload. -/
  signature : Signature
  deriving DecidableEq, Repr

/-- The slot of the result. -/
def Resolved.result (r : Resolved) : Slot := .value r.signature.returns

/-- The slot of the result of a call that may be unresolved. -/
def Resolved.resultOf : Option Resolved → Slot
  | some r => r.result
  | none => .object

/-- What a call invokes. -/
inductive CallTarget where
  /-- The call of a class makes an instance. -/
  | construct (type : TypeId)
  /-- A method or builtin function with one overload that fits. -/
  | method (resolved : Resolved)
  /-- Nothing is known. -/
  | dynamic
  deriving DecidableEq, Repr

/-- The slot of the result of a call. -/
def CallTarget.result : CallTarget → Slot
  | .construct t => .value t
  | .method r => r.result
  | .dynamic => .object

/-- The slot of the result of a call whose arguments are not known. -/
def CallTarget.resultOfUnknown : CallTarget → Slot
  | .construct t => .value t
  | _ => .object

/-- The type of a constant. -/
def Constant.type : Constant → TypeId
  | .none => TypeId.none
  | .bool _ => TypeId.bool
  | .int _ => TypeId.int
  | .float _ => TypeId.float
  | .str _ => TypeId.str
  | .bytes _ => TypeId.bytes
  | .tuple _ => TypeId.tuple
  | .code _ => TypeId.code
  | .ellipsis => TypeId.object

namespace Typer

/-! ## 1. Names and constants -/

/-- The slot of constant `i`. -/
def constSlot (ty : Typer) (i : Nat) : Slot :=
  match ty.constants[i]? with
  | some c => .value c.type
  | none => .object

/-- The slot of a global name: a builtin, where the settings let builtins be assumed. -/
def globalSlot (ty : Typer) (name : String) : Slot :=
  if ty.config.assumeBuiltins then
    match ty.model.lookupGlobal name with
    | some (.classObject t) => .classObject t
    | some .function => .method TypeId.builtins name
    | none => .object
  else .object

/-- The slot of an attribute: a method of the receiver's type before a declared attribute. -/
def attrSlot (ty : Typer) (obj : Slot) (name : String) : Slot :=
  if ty.config.specialize then
    let t := obj.runtimeType
    if ty.model.hasMethod t name then .method t name
    else
      match ty.model.lookupAttribute t name with
      | some a => .value a
      | none => .object
  else .object

/-! ## 2. Methods and operators -/

/-- The overload that a method call resolves to. -/
def resolveMethod (ty : Typer) (receiver : TypeId) (name : String) (args : List Slot)
    (keywords : List String) : Option Resolved :=
  if ty.config.specialize then
    (ty.model.resolveOverload (ty.model.lookupMethod receiver name) (args.map Slot.runtimeType)
      keywords).map fun signature => { receiver, name, signature }
  else none

/-- The overload of a unary operator. -/
def resolveUnary (ty : Typer) (op : UnaryOp) (v : Slot) : Option Resolved :=
  op.method?.bind fun name => ty.resolveMethod v.runtimeType name [] []

/-- Whether the right operand's exchanged method goes first: its type is a proper subtype of the
left one's and has that method. -/
def reflectedFirst (ty : Typer) (op : BinaryOp) (l r : TypeId) : Bool :=
  l != r && ty.model.isSubtype r l && ty.model.hasMethod r op.reflected

/-- The overload of a binary operator: in place, then forward and exchanged in the order that the
operand types decide. -/
def resolveBinary (ty : Typer) (op : BinaryOp) (inplace : Bool) (lhs rhs : Slot) :
    Option Resolved :=
  let l := lhs.runtimeType
  let r := rhs.runtimeType
  let updated := if inplace then ty.resolveMethod l op.inplace [rhs] [] else none
  let forward := ty.resolveMethod l op.method [rhs] []
  let reflected := ty.resolveMethod r op.reflected [lhs] []
  updated.or (if ty.reflectedFirst op l r then reflected.or forward else forward.or reflected)

/-- The overload of a comparison: that of the left operand, then the exchanged one of the right. -/
def resolveCompare (ty : Typer) (op : Comparison) (lhs rhs : Slot) : Option Resolved :=
  (ty.resolveMethod lhs.runtimeType op.method [rhs] []).or
    (ty.resolveMethod rhs.runtimeType op.swapped.method [lhs] [])

/-! ## 3. Calls and iteration -/

/-- What a call invokes. Calling the class of classes gives a class, so nothing is said of it. -/
def resolveCall (ty : Typer) (callee : Slot) (args : List Slot) (keywords : List String) :
    CallTarget :=
  if ty.config.specialize then
    match callee with
    | .classObject t => if t = TypeId.type then .dynamic else .construct t
    | .method receiver name =>
      match ty.resolveMethod receiver name args keywords with
      | some r => .method r
      | none => .dynamic
    | .value _ => .dynamic
  else .dynamic

/-- The slot of an iterator over a value. -/
def iterSlot (ty : Typer) (v : Slot) : Slot :=
  Resolved.resultOf (ty.resolveMethod v.runtimeType "__iter__" [] [])

/-- The slot of the items of an iterator. -/
def nextSlot (ty : Typer) (iterator : Slot) : Slot :=
  Resolved.resultOf (ty.resolveMethod iterator.runtimeType "__next__" [] [])

end Typer

end Stackwise
