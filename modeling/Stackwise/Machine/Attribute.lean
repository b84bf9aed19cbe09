import Stackwise.Machine.Host

/-!
# Attributes

Reading and setting attributes. A host object is asked first; then come the data attributes of
builtin values, and the methods that the type model declares.
-/

namespace Stackwise

namespace CodeObject

/-- The identity of the name. -/
def nameId (c : CodeObject) : Ident := .name c.serial

/-- The identity of the qualified name, which is the name unless it is a text of its own. -/
def qualnameId (c : CodeObject) : Ident :=
  if c.ownQualname then .qualname c.serial else .name c.serial

end CodeObject

namespace Machine

/-- Whether the type of a value declares a method; classes and host objects have none of these. -/
def hasTypeMethod (m : TypeModel) (v : Value) (name : String) : Bool :=
  match v with
  | .native _ _ | .classObject _ => false
  | v => m.hasMethod v.type name

/-- The data attributes of exceptions. -/
def exceptionAttribute? (ref : Nat) (t : TypeId) (name : String) : Action (Option Value) := do
  let e := (← get).exceptions.get ref
  match name with
  | "args" => return some (.tuple e.argsId e.args)
  | "__traceback__" => return some (← make (Store.newTraceback e.traceback))
  | "value" =>
    if (← model).isSubtype t TypeId.stopIteration then return some (e.args.headD .none)
    else return none
  | _ => return none

/-- The data attributes of functions. -/
def functionAttribute? (f : Function) : String → Option Value
  | "__name__" => some (.str f.code.nameId f.code.name)
  | "__qualname__" => some (.str f.qualnameId f.qualname)
  | "__code__" => some (.code f.code)
  | "__defaults__" =>
    some (if f.defaults.isEmpty then .none else .tuple f.defaultsId f.defaults)
  | _ => none

/-- The data attributes of builtin values. -/
def dataAttribute? (v : Value) (name : String) : Action (Option Value) := do
  let s ← get
  if name == "__class__" then return some (.classObject v.type)
  match v, name with
  | .exception ref t, name => exceptionAttribute? ref t name
  | .classObject t, "__name__" => return some (← newStr ((← model).name t))
  | .slice _ a _ _, "start" => return some a
  | .slice _ _ b _, "stop" => return some b
  | .slice _ _ _ c, "step" => return some c
  | .range p, "start" => return some (.int p.start)
  | .range p, "stop" => return some (.int p.stop)
  | .range p, "step" => return some (.int p.step)
  | .function r, name => return functionAttribute? (s.functions.get r) name
  | .method _ receiver _ _, "__self__" => return some receiver
  | .method _ _ nameId name, "__name__" => return some (.str nameId name)
  | .builtin nameId name, "__name__" => return some (.str nameId name)
  | .generator g, "__name__" =>
    let g := s.generators.get g
    return some (.str g.nameId g.name)
  | .cell r, "cell_contents" => return s.cells.get r
  | .code c, "co_name" => return some (.str c.nameId c.name)
  | _, _ => return none

/-- The attribute that a host object has of its own: data, else a bound method. -/
def nativeAttribute? (v : Value) (name : String) : Action (Option Value) := do
  match v with
  | .native ref _ =>
    let n := (← get).natives.get ref
    match n.attributes.lookup name with
    | some a => return some a
    | none => if n.hasMethod name then return some (← newMethod v name) else return none
  | _ => return none

/-- The attribute of a value. -/
def getAttr (v : Value) (name : String) : Action Value := do
  if let some a ← nativeAttribute? v name then return a
  if let some a ← dataAttribute? v name then return a
  if hasTypeMethod (← model) v name then newMethod v name
  else attributeError (← typeName v) name

/-- Sets the attribute of a value; only host objects have any that can be set. -/
def setAttr (v : Value) (name : String) (content : Value) : Action Unit := do
  let done ← match v with
    | .native ref _ => setNativeAttribute ref name content
    | _ => pure false
  unless done do attributeError (← typeName v) name

/-- A special method of a value, looked up on its type. -/
def special (v : Value) (name : String) : Action Value := do
  let found ← match v with
    | .native _ _ => nativeHas v name
    | v => pure (hasTypeMethod (← model) v name)
  if found then newMethod v name else raiseText TypeId.attributeError name

end Machine

end Stackwise
