import Stackwise.Analysis.AbstractState
import Stackwise.Analysis.Typer

/-!
# Effects of operations on abstract states

`Op.effect` takes the state before an operation to one state for each way on: to the next
operation, or to an offset that the operation names. No way on means that control leaves the
function. An operation that takes more than there is has no effect but a fault.
-/

namespace Stackwise

/-! ## 1. Ways on -/

/-- Where control goes on. -/
inductive Successor where
  /-- The next operation. -/
  | next
  /-- The operation at an offset. -/
  | jump (offset : Nat)
  deriving DecidableEq, Repr

/-- The states that leave an operation. -/
abbrev Transfer := List (Successor × AbstractState)

/-- The state that goes on to the next operation. -/
def Transfer.fallthrough? (t : Transfer) : Option AbstractState := t.lookup .next

/-! ## 2. Collections -/

/-- The number of values that a building operation takes. -/
def Shape.taken : Shape → Nat → Nat
  | .map, n => 2 * n
  | .constKeyMap, n => n + 1
  | _, n => n

/-- The type that a building operation makes. -/
def Shape.type : Shape → TypeId
  | .tuple => TypeId.tuple
  | .list => TypeId.list
  | .set => TypeId.set
  | .map | .constKeyMap => TypeId.dict
  | .string => TypeId.str
  | .slice => TypeId.slice

/-- The number of values that an updating operation takes. -/
def Update.taken : Update → Nat
  | .mapAdd => 2
  | _ => 1

namespace Op

/-! ## 3. Common shapes -/

/-- Control goes on with one state. -/
def goOn (s : AbstractState) : Transfer := [(.next, s)]

/-- Control goes on with one state or jumps with another. -/
def branch (s : AbstractState) (target : Nat) (taken : AbstractState) : Transfer :=
  [(.next, s), (.jump target, taken)]

/-- Takes `n` slots and puts one value of a type in their place. -/
def makeOf (n offset : Nat) (t : TypeId) (s : AbstractState) : Except BodyError Transfer :=
  (s.dropMany n offset).map fun s => goOn (s.push (.value t))

/-- Takes `n` slots. -/
def take (n offset : Nat) (s : AbstractState) : Except BodyError Transfer :=
  (s.dropMany n offset).map goOn

/-- Takes the top slot and puts another in its place. -/
def mapTop (f : Slot → Slot) (offset : Nat) (s : AbstractState) : Except BodyError Transfer :=
  (s.pop offset).map fun (v, s) => goOn (s.push (f v))

/-- Takes two slots and puts one in their place. -/
def mapTwo (f : Slot → Slot → Slot) (offset : Nat) (s : AbstractState) :
    Except BodyError Transfer := do
  let (rhs, s) ← s.pop offset
  let (lhs, s) ← s.pop offset
  return goOn (s.push (f lhs rhs))

/-- The state at the start of a handler whose block is opened at a level. -/
def handlerEntry (s : AbstractState) (level offset : Nat) : Except BodyError AbstractState :=
  (s.truncate level offset).map (·.enterHandler level)

/-- The bit of a formatting operand that says that a specification lies on the stack. -/
def formatHasSpec : Nat := 4

/-- The number of optional parts that the operand of a function-making operation asks for:
defaults, keyword defaults, annotations and closure. -/
def functionParts (flags : Nat) : Nat :=
  ([1, 2, 4, 8].filter fun bit => flags &&& bit != 0).length

/-! ## 4. Calls -/

/-- Takes `extra` slots, the arguments and the callee, and puts the result on the stack. -/
def call (ty : Typer) (argc offset : Nat) (s : AbstractState) : Except BodyError Transfer := do
  let (args, s) ← s.popMany argc offset
  let (callee, s) ← s.pop offset
  return goOn (s.push (ty.resolveCall callee args []).result)

/-- A call with keyword names on top of the stack; only names that the operation before loaded are
known. -/
def callKeywords (ty : Typer) (argc offset : Nat) (keywords : Option (List String))
    (s : AbstractState) : Except BodyError Transfer := do
  let (_, s) ← s.pop offset
  let (args, s) ← s.popMany argc offset
  let (callee, s) ← s.pop offset
  let result := match keywords with
    | some names => (ty.resolveCall callee args names).result
    | none => (ty.resolveCall callee [] []).resultOfUnknown
  return goOn (s.push result)

/-- A call with the arguments in collections. -/
def callUnpacked (ty : Typer) (kwargs : Bool) (offset : Nat) (s : AbstractState) :
    Except BodyError Transfer := do
  let s ← if kwargs then s.dropMany 1 offset else .ok s
  let (_, s) ← s.pop offset
  let (callee, s) ← s.pop offset
  return goOn (s.push (ty.resolveCall callee [] []).resultOfUnknown)

/-- A call of a method that was loaded together with its receiver. -/
def callMethodSlots (ty : Typer) (argc offset : Nat) (s : AbstractState) :
    Except BodyError Transfer := do
  let (args, s) ← s.popMany argc offset
  let (_, s) ← s.pop offset
  let (callee, s) ← s.pop offset
  return goOn (s.push (ty.resolveCall callee args []).result)

/-! ## 5. Blocks -/

/-- Opens a protected block under which all but the topmost `reserve` slots lie. -/
def openBlock (handler : Nat) (kind : BlockKind) (reserve offset : Nat) (s : AbstractState) :
    Except BodyError Transfer :=
  if s.depth < reserve then .error (.stackUnderflow offset)
  else do
    let level := s.depth - reserve
    let taken ← handlerEntry s level offset
    return branch { s with blocks := .protect handler level kind :: s.blocks } handler taken

/-- Enters a context manager: its exit method takes its place, a block opens above it, and the
result of its entry goes on top. -/
def enterWith (ty : Typer) (handler offset : Nat) (s : AbstractState) :
    Except BodyError Transfer := do
  let (manager, s) ← s.pop offset
  let t := manager.runtimeType
  let s := s.push (.method t "__exit__")
  let level := s.depth
  let taken ← handlerEntry s level offset
  let entered := Resolved.resultOf (ty.resolveMethod t "__enter__" [] [])
  let inside := { s with blocks := .protect handler level .withBlock :: s.blocks }
  return branch (inside.push entered) handler taken

/-- Closes the innermost protected block. -/
def closeBlock (offset : Nat) (s : AbstractState) : Except BodyError Transfer :=
  match s.blocks with
  | .protect _ _ _ :: rest => .ok (goOn { s with blocks := rest })
  | _ => .error (.noBlockToPop offset)

/-- Leaves the innermost handler and takes what was handled before. -/
def leaveHandler (offset : Nat) (s : AbstractState) : Except BodyError Transfer :=
  match s.blocks with
  | .handling _ :: rest => take 3 offset { s with blocks := rest }
  | _ => .error (.notInHandler offset)

/-- Calls the exit method that lies under the six exception slots. -/
def startExit (ty : Typer) (offset : Nat) (s : AbstractState) : Except BodyError Transfer := do
  let exit ← s.peek 6 offset
  let args ← [0, 1, 2].mapM fun n => s.peek n offset
  return goOn (s.push (ty.resolveCall exit args []).result)

/-! ## 6. The effect -/

/-- The states after an operation, one for each way on. -/
def effect (ty : Typer) (offset : Nat) (before : AbstractState) (op : Op) :
    Except BodyError Transfer :=
  let s := { before with keywords := none }
  match op with
  | .popTop => take 1 offset s
  | .rotTwo => (s.rotate 2 offset).map goOn
  | .rotThree => (s.rotate 3 offset).map goOn
  | .rotFour => (s.rotate 4 offset).map goOn
  | .rotN n => (s.rotate n offset).map goOn
  | .dupTop => (s.peek 0 offset).map fun v => goOn (s.push v)
  | .dupTopTwo => do
    let second ← s.peek 1 offset
    let top ← s.peek 0 offset
    return goOn ((s.push second).push top)
  | .nop | .genStart _ | .setupAnnotations | .resumeDispatch _ => .ok (goOn s)
  | .unary .not => mapTop (fun _ => .value TypeId.bool) offset s
  | .unary op => mapTop (fun v => Resolved.resultOf (ty.resolveUnary op v)) offset s
  | .binary op inplace =>
    mapTwo (fun l r => Resolved.resultOf (ty.resolveBinary op inplace l r)) offset s
  | .binarySubscr =>
    mapTwo (fun c i => Resolved.resultOf (ty.resolveMethod c.runtimeType "__getitem__" [i] []))
      offset s
  | .storeSubscr => take 3 offset s
  | .deleteSubscr => take 2 offset s
  | .compare op => mapTwo (fun l r => Resolved.resultOf (ty.resolveCompare op l r)) offset s
  | .isOp _ | .containsOp _ => makeOf 2 offset TypeId.bool s
  | .getIter => mapTop ty.iterSlot offset s
  | .getYieldFromIter =>
    mapTop (fun v =>
      if ty.model.isSubtype v.runtimeType TypeId.generator then v else ty.iterSlot v) offset s
  | .forIter exit => do
    let (iterator, done) ← s.pop offset
    return branch (s.push (ty.nextSlot iterator)) exit done
  | .loadConst i =>
    .ok (goOn { s.push (ty.constSlot i) with keywords := ty.constants[i]?.bind Constant.asNames? })
  | .loadFast i => do
    let v ← AbstractState.variable_ s.locals i offset
    return goOn (s.push (v.getD .object))
  | .storeFast i => do
    let (v, s) ← s.pop offset
    let locals ← AbstractState.setVariable s.locals i offset (some v)
    return goOn { s with locals }
  | .deleteFast i => do
    let locals ← AbstractState.setVariable s.locals i offset none
    return goOn { s with locals }
  | .loadDeref i | .loadClassDeref i => do
    let _ ← AbstractState.variable_ s.cells i offset
    return goOn (s.push .object)
  | .storeDeref i => do
    let (v, s) ← s.pop offset
    let cells ← AbstractState.setVariable s.cells i offset (some v)
    return goOn { s with cells }
  | .deleteDeref i => do
    let cells ← AbstractState.setVariable s.cells i offset none
    return goOn { s with cells }
  | .loadClosure i => do
    let _ ← AbstractState.variable_ s.cells i offset
    return goOn (s.push (.value TypeId.cell))
  | .loadGlobal name _ | .loadName name _ => .ok (goOn (s.push (ty.globalSlot name)))
  | .storeGlobal _ | .storeName _ => take 1 offset s
  | .deleteGlobal _ | .deleteName _ => .ok (goOn s)
  | .loadAttr name => mapTop (fun v => ty.attrSlot v name) offset s
  | .storeAttr _ => take 2 offset s
  | .deleteAttr _ => take 1 offset s
  | .loadMethod name => do
    let (receiver, s) ← s.pop offset
    return goOn ((s.push (.method receiver.runtimeType name)).push receiver)
  | .loadBuildClass => .ok (goOn (s.push (.value TypeId.function)))
  | .loadAssertionError => .ok (goOn (s.push (.classObject TypeId.assertionError)))
  | .importName _ => makeOf 2 offset TypeId.module s
  | .importFrom _ => (s.peek 0 offset).map fun _ => goOn (s.push .object)
  | .importStar | .printExpr => take 1 offset s
  | .build shape n => makeOf (shape.taken n) offset shape.type s
  | .listToTuple => makeOf 1 offset TypeId.tuple s
  | .update kind depth => do
    let s ← s.dropMany kind.taken offset
    let _ ← s.peek (depth - 1) offset
    return goOn s
  | .unpackSequence n => (s.pop offset).map fun (_, s) => goOn (s.pushMany n .object)
  | .unpackEx before after => do
    let (_, s) ← s.pop offset
    return goOn (((s.pushMany after .object).push (.value TypeId.list)).pushMany before .object)
  | .formatValue flags =>
    makeOf (if flags &&& formatHasSpec != 0 then 2 else 1) offset TypeId.str s
  | .callFunction argc => call ty argc offset s
  | .callFunctionKw argc => callKeywords ty argc offset before.keywords s
  | .callFunctionEx kwargs => callUnpacked ty kwargs offset s
  | .callMethod argc => callMethodSlots ty argc offset s
  | .makeFunction flags => makeOf (2 + functionParts flags) offset TypeId.function s
  | .jump target => .ok [(.jump target, s)]
  | .popJumpIf _ target => (s.pop offset).map fun (_, s) => branch s target s
  | .jumpIfOrPop _ target => (s.pop offset).map fun (_, rest) => branch rest target s
  | .jumpIfNotExcMatch target => (s.dropMany 2 offset).map fun s => branch s target s
  | .returnValue => (s.pop offset).map fun _ => []
  | .setupFinally handler kind reserve => openBlock handler kind reserve offset s
  | .setupWith handler => enterWith ty handler offset s
  | .popBlock => closeBlock offset s
  | .popExcept => leaveHandler offset s
  | .reraise _ => (s.dropMany 3 offset).map fun _ => []
  | .raiseVarargs n => (s.dropMany n offset).map fun _ => []
  | .withExceptStart => startExit ty offset s
  | .yieldValue => mapTop (fun _ => .object) offset s
  | .yieldFrom => makeOf 2 offset TypeId.object s
  | .loadSpecial name => mapTop (fun v => .method v.runtimeType name) offset s
  | .suspend _ => take 1 offset s
  | .resumePoint _ => .ok (goOn (s.push .object))
  | .delegate _ exit => do
    let (_, s) ← s.pop offset
    let (_, done) ← s.pop offset
    return branch s exit (done.push .object)

end Op

end Stackwise
