import Stackwise.Analysis.Effect

/-!
# Lowering

How an operation is to be carried out, given what is known before it: not at all, with operands of
proven types, as a call of one overload, or by dynamic dispatch. The decision reads the state of the
fixed point, so what it uses holds on every path to the operation.
-/

namespace Stackwise

/-- How an operation is carried out. -/
inductive Lowering where
  /-- Nothing is left to do. -/
  | elided
  /-- By dynamic dispatch. -/
  | dynamic
  /-- The types of the operands are proven, lowest first, and so is that of the result. -/
  | specialized (operands : List TypeId) (result : TypeId)
  /-- One overload is called. -/
  | directCall (owner : TypeId) (name : String) (signature : Signature)
  /-- Control returns; `checked` if the value must be converted to the declared type. -/
  | return_ (checked : Bool)
  /-- The state is saved and control leaves. -/
  | suspend (state : Nat)
  /-- Control comes back. -/
  | resume (state : Nat)
  deriving DecidableEq, Repr

namespace Lowering

/-- The text of a type number in a lowering. -/
def typeText (t : TypeId) : String := "TypeId(" ++ toString t.raw ++ ")"

/-- The text of a lowering. -/
def text : Lowering → String
  | .elided => "Elided"
  | .dynamic => "Dynamic"
  | .specialized operands result =>
    "Specialized \x7b operands: [" ++ ", ".intercalate (operands.map typeText) ++ "], result: "
      ++ typeText result ++ " \x7d"
  | .directCall owner name signature =>
    "DirectCall \x7b owner: " ++ typeText owner ++ ", name: " ++ Text.quoted name
      ++ ", signature: " ++ signature.text ++ " \x7d"
  | .return_ checked => "Return \x7b checked: " ++ toString checked ++ " \x7d"
  | .suspend state => "Suspend \x7b state: " ++ toString state ++ " \x7d"
  | .resume state => "Resume \x7b state: " ++ toString state ++ " \x7d"

end Lowering

namespace Op

/-- The run-time types of the topmost `n` slots, lowest first. -/
def operandTypes (s : AbstractState) (n : Nat) : List TypeId :=
  (s.stack.take n).reverse.map Slot.runtimeType

/-- The lowering of an operator: specialised if an overload was found. -/
def lowerResolved (s : AbstractState) (n : Nat) : Option Resolved → Lowering
  | some r => .specialized (operandTypes s n) r.signature.returns
  | none => .dynamic

/-- The lowering of an operator on the two topmost slots. -/
def lowerTwo (s : AbstractState) (resolve : Slot → Slot → Option Resolved) : Lowering :=
  match s.stack with
  | r :: l :: _ => lowerResolved s 2 (resolve l r)
  | _ => .dynamic

/-- The lowering of a call whose callee lies `under` slots below the arguments. -/
def lowerCall (ty : Typer) (s : AbstractState) (argc under : Nat) : Lowering :=
  match s.stack[argc + under]? with
  | none => .dynamic
  | some callee =>
    let args := (s.stack.take argc).reverse
    match ty.resolveCall callee args [] with
    | .method r => .directCall r.signature.owner r.name r.signature
    | .construct t => .specialized (args.map Slot.runtimeType) t
    | .dynamic => .dynamic

/-- Whether a returned value must be converted to the declared type. -/
def returnChecked (ty : Typer) (s : AbstractState) (returns : TypeId) : Bool :=
  match s.stack with
  | v :: _ => returns != TypeId.object && !ty.model.isSubtype v.runtimeType returns
  | [] => true

/-- How an operation is carried out in a function with the given return type. -/
def lowering (ty : Typer) (s : AbstractState) (returns : TypeId) : Op → Lowering
  | .nop | .genStart _ | .setupFinally _ _ _ | .popBlock => .elided
  | .unary .not => .specialized (operandTypes s 1) TypeId.bool
  | .unary op =>
    match s.stack with
    | v :: _ => lowerResolved s 1 (ty.resolveUnary op v)
    | [] => .dynamic
  | .binary op inplace => lowerTwo s (ty.resolveBinary op inplace)
  | .compare op => lowerTwo s (ty.resolveCompare op)
  | .binarySubscr => lowerTwo s fun c i => ty.resolveMethod c.runtimeType "__getitem__" [i] []
  | .isOp _ => .specialized (operandTypes s 2) TypeId.bool
  | .callFunction argc => lowerCall ty s argc 0
  | .callMethod argc => lowerCall ty s argc 1
  | .returnValue => .return_ (returnChecked ty s returns)
  | .suspend state | .delegate state _ => .suspend state
  | .resumePoint state => .resume state
  | .loadConst i => .specialized [] (ty.constSlot i).runtimeType
  | _ => .dynamic

end Op

end Stackwise
