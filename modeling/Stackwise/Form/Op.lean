import Stackwise.Body.Op
import Stackwise.Form.Basic

/-!
# Operations in forms

An operation is written as a list: its name, then its operands in order.
-/

namespace Stackwise

namespace Form

/-- Reads the kind of a block. -/
def toBlockKind (f : Form) : Except ReadError BlockKind := do
  match ← f.toText with
  | "Try" => return .tryBlock
  | "With" => return .withBlock
  | _ => expected "kind of block"

/-- The operations without operands, by name. -/
def plainOps : List (String × Op) := [
  ("PopTop", .popTop), ("RotTwo", .rotTwo), ("RotThree", .rotThree), ("RotFour", .rotFour),
  ("DupTop", .dupTop), ("DupTopTwo", .dupTopTwo), ("Nop", .nop), ("BinarySubscr", .binarySubscr),
  ("StoreSubscr", .storeSubscr), ("DeleteSubscr", .deleteSubscr), ("GetIter", .getIter),
  ("GetYieldFromIter", .getYieldFromIter), ("LoadBuildClass", .loadBuildClass),
  ("LoadAssertionError", .loadAssertionError), ("ImportStar", .importStar),
  ("SetupAnnotations", .setupAnnotations), ("PrintExpr", .printExpr),
  ("ListToTuple", .listToTuple), ("ReturnValue", .returnValue), ("PopBlock", .popBlock),
  ("PopExcept", .popExcept), ("WithExceptStart", .withExceptStart), ("YieldValue", .yieldValue),
  ("YieldFrom", .yieldFrom)]

/-- The operations whose one operand is a number. -/
def numberOps : List (String × (Nat → Op)) := [
  ("RotN", .rotN), ("ForIter", .forIter), ("LoadConst", .loadConst), ("LoadFast", .loadFast),
  ("StoreFast", .storeFast), ("DeleteFast", .deleteFast), ("LoadDeref", .loadDeref),
  ("StoreDeref", .storeDeref), ("DeleteDeref", .deleteDeref), ("LoadClosure", .loadClosure),
  ("LoadClassDeref", .loadClassDeref), ("BuildTuple", .build .tuple), ("BuildList", .build .list),
  ("BuildSet", .build .set), ("BuildMap", .build .map), ("BuildConstKeyMap", .build .constKeyMap),
  ("BuildString", .build .string), ("BuildSlice", .build .slice),
  ("ListAppend", .update .listAppend), ("SetAdd", .update .setAdd), ("MapAdd", .update .mapAdd),
  ("ListExtend", .update .listExtend), ("SetUpdate", .update .setUpdate),
  ("DictMerge", .update .dictMerge), ("DictUpdate", .update .dictUpdate),
  ("UnpackSequence", .unpackSequence), ("FormatValue", .formatValue),
  ("CallFunction", .callFunction), ("CallFunctionKw", .callFunctionKw),
  ("CallMethod", .callMethod), ("MakeFunction", .makeFunction), ("Jump", .jump),
  ("JumpIfNotExcMatch", .jumpIfNotExcMatch), ("SetupWith", .setupWith),
  ("RaiseVarargs", .raiseVarargs), ("GenStart", .genStart), ("Suspend", .suspend),
  ("ResumePoint", .resumePoint)]

/-- The operations whose one operand is a name. -/
def nameOps : List (String × (String → Op)) := [
  ("LoadGlobal", (.loadGlobal · 0)), ("StoreGlobal", .storeGlobal), ("DeleteGlobal", .deleteGlobal),
  ("LoadName", (.loadName · 0)), ("StoreName", .storeName), ("DeleteName", .deleteName),
  ("LoadAttr", .loadAttr), ("StoreAttr", .storeAttr), ("DeleteAttr", .deleteAttr),
  ("LoadMethod", .loadMethod), ("ImportName", .importName), ("ImportFrom", .importFrom),
  ("LoadSpecial", .loadSpecial)]

/-- The operations whose one operand is a truth value. -/
def flagOps : List (String × (Bool → Op)) := [
  ("IsOp", .isOp), ("ContainsOp", .containsOp), ("CallFunctionEx", .callFunctionEx),
  ("Reraise", .reraise)]

/-- Reads an operator by its name. -/
def toUnaryOp (f : Form) : Except ReadError UnaryOp := do
  let name ← f.toText
  match UnaryOp.all.find? (·.name == name) with
  | some op => return op
  | none => expected "unary operator"

/-- Reads an operator by its symbol. -/
def toBinaryOp (f : Form) : Except ReadError BinaryOp := do
  match BinaryOp.ofSymbol? (← f.toText) with
  | some op => return op
  | none => expected "binary operator"

/-- Reads a comparison by its symbol. -/
def toComparison (f : Form) : Except ReadError Comparison := do
  match Comparison.ofSymbol? (← f.toText) with
  | some op => return op
  | none => expected "comparison"

/-- Reads an operation. -/
def toOp (f : Form) : Except ReadError Op := do
  let a := f.item 1
  let b := f.item 2
  let name ← (f.item 0).toText
  if let some op := plainOps.lookup name then return op
  if let some op := numberOps.lookup name then return op (← a.toNat)
  if let some op := nameOps.lookup name then return op (← a.toText)
  if let some op := flagOps.lookup name then return op (← a.toBool)
  match name with
  | "Unary" => return .unary (← a.toUnaryOp)
  | "Binary" => return .binary (← a.toBinaryOp) (← b.toBool)
  | "Compare" => return .compare (← a.toComparison)
  | "UnpackEx" => return .unpackEx (← a.toNat) (← b.toNat)
  | "PopJumpIf" => return .popJumpIf (← a.toBool) (← b.toNat)
  | "JumpIfOrPop" => return .jumpIfOrPop (← a.toBool) (← b.toNat)
  | "SetupFinally" => return .setupFinally (← a.toNat) (← b.toBlockKind) (← (f.item 3).toNat)
  | "ResumeDispatch" => return .resumeDispatch (← (← a.toList).mapM toNatPair)
  | "Delegate" => return .delegate (← a.toNat) (← b.toNat)
  | _ => expected "operation"

/-- Reads a body: each operation at its position, on a line of its own. -/
def toBody (f : Form) : Except ReadError (List Instr) := do
  let ops ← (← f.toList).mapM toOp
  return Instr.markTargets (ops.zipIdx.map fun (op, i) =>
    { offset := i, op, line := some (i + 1), origin := some i, isJumpTarget := false })

/-- The form of a body. -/
def body (is : List Instr) : Form :=
  .listOf (fun i => .list [.text i.text, .opt .nat i.line, .opt .nat i.origin]) is

end Form

end Stackwise
