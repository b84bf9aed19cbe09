import Stackwise.Body.Writer
import Stackwise.Bytecode.Stream

/-!
# From instruction streams to bodies

Each instruction becomes one operation, its operands checked against the tables of the code object.
Offsets become positions in the list, so both dialects give the same body; the map that comes with
it takes the old offsets to the new ones.
-/

namespace Stackwise

namespace Op

/-- The binary operator of an opcode, and whether it works in place. -/
def binaryOf? : Opcode → Option (BinaryOp × Bool)
  | .binaryPower => some (.power, false)
  | .binaryMultiply => some (.multiply, false)
  | .binaryMatrixMultiply => some (.matrixMultiply, false)
  | .binaryFloorDivide => some (.floorDivide, false)
  | .binaryTrueDivide => some (.trueDivide, false)
  | .binaryModulo => some (.modulo, false)
  | .binaryAdd => some (.add, false)
  | .binarySubtract => some (.subtract, false)
  | .binaryLshift => some (.lshift, false)
  | .binaryRshift => some (.rshift, false)
  | .binaryAnd => some (.and, false)
  | .binaryXor => some (.xor, false)
  | .binaryOr => some (.or, false)
  | .inplacePower => some (.power, true)
  | .inplaceMultiply => some (.multiply, true)
  | .inplaceMatrixMultiply => some (.matrixMultiply, true)
  | .inplaceFloorDivide => some (.floorDivide, true)
  | .inplaceTrueDivide => some (.trueDivide, true)
  | .inplaceModulo => some (.modulo, true)
  | .inplaceAdd => some (.add, true)
  | .inplaceSubtract => some (.subtract, true)
  | .inplaceLshift => some (.lshift, true)
  | .inplaceRshift => some (.rshift, true)
  | .inplaceAnd => some (.and, true)
  | .inplaceXor => some (.xor, true)
  | .inplaceOr => some (.or, true)
  | _ => none

section Operands

variable (i : Instruction) (c : CodeObject)

/-- The fault of an operand without meaning. -/
def invalid : BodyError := .invalidOperand i.offset i.opcode i.arg

/-- The fault of an operand that points outside its table. -/
def outside (t : OperandTable) : BodyError := .operandOutOfRange i.offset i.opcode i.arg t

/-- The jump target. -/
def targetOf : Except BodyError Nat :=
  match i.target with
  | some t => .ok t
  | none => .error (invalid i)

/-- The name that the operand points to. -/
def nameOf : Except BodyError String :=
  match c.names[i.arg]? with
  | some n => .ok n
  | none => .error (outside i .names)

/-- The operand as a local slot. -/
def localOf : Except BodyError Nat :=
  if i.arg < c.varnames.length then .ok i.arg else .error (outside i .varnames)

/-- The operand as a closure slot. -/
def cellOf : Except BodyError Nat :=
  if i.arg < c.closureSize then .ok i.arg else .error (outside i .cells)

/-- The operand as a position in the constant table. -/
def constantOf : Except BodyError Nat :=
  if i.arg < c.constants.length then .ok i.arg else .error (outside i .constants)

/-- The operand, if it has a meaning. -/
def argWhen (ok : Bool) : Except BodyError Nat :=
  if ok then .ok i.arg else .error (invalid i)

/-- The operation of an instruction. -/
def decode : Except BodyError Op :=
  match i.opcode with
  | .popTop => .ok .popTop
  | .rotTwo => .ok .rotTwo
  | .rotThree => .ok .rotThree
  | .rotFour => .ok .rotFour
  | .rotN => (argWhen i (i.arg != 0)).map .rotN
  | .dupTop => .ok .dupTop
  | .dupTopTwo => .ok .dupTopTwo
  | .nop => .ok .nop
  | .unaryPositive => .ok (.unary .positive)
  | .unaryNegative => .ok (.unary .negative)
  | .unaryNot => .ok (.unary .not)
  | .unaryInvert => .ok (.unary .invert)
  | .binarySubscr => .ok .binarySubscr
  | .storeSubscr => .ok .storeSubscr
  | .deleteSubscr => .ok .deleteSubscr
  | .compareOp =>
    match Comparison.ofArg? i.arg with
    | some op => .ok (.compare op)
    | none => .error (invalid i)
  | .isOp => (argWhen i (i.arg ≤ 1)).map fun n => .isOp (n == 1)
  | .containsOp => (argWhen i (i.arg ≤ 1)).map fun n => .containsOp (n == 1)
  | .getIter => .ok .getIter
  | .getYieldFromIter => .ok .getYieldFromIter
  | .forIter => (targetOf i).map .forIter
  | .loadConst => (constantOf i c).map .loadConst
  | .loadFast => (localOf i c).map .loadFast
  | .storeFast => (localOf i c).map .storeFast
  | .deleteFast => (localOf i c).map .deleteFast
  | .loadDeref => (cellOf i c).map .loadDeref
  | .storeDeref => (cellOf i c).map .storeDeref
  | .deleteDeref => (cellOf i c).map .deleteDeref
  | .loadClosure => (cellOf i c).map .loadClosure
  | .loadClassDeref => (cellOf i c).map .loadClassDeref
  | .loadGlobal => (nameOf i c).map (.loadGlobal · i.arg)
  | .storeGlobal => (nameOf i c).map .storeGlobal
  | .deleteGlobal => (nameOf i c).map .deleteGlobal
  | .loadName => (nameOf i c).map (.loadName · i.arg)
  | .storeName => (nameOf i c).map .storeName
  | .deleteName => (nameOf i c).map .deleteName
  | .loadAttr => (nameOf i c).map .loadAttr
  | .storeAttr => (nameOf i c).map .storeAttr
  | .deleteAttr => (nameOf i c).map .deleteAttr
  | .loadMethod => (nameOf i c).map .loadMethod
  | .loadBuildClass => .ok .loadBuildClass
  | .loadAssertionError => .ok .loadAssertionError
  | .importName => (nameOf i c).map .importName
  | .importFrom => (nameOf i c).map .importFrom
  | .importStar => .ok .importStar
  | .setupAnnotations => .ok .setupAnnotations
  | .printExpr => .ok .printExpr
  | .buildTuple => .ok (.build .tuple i.arg)
  | .buildList => .ok (.build .list i.arg)
  | .buildSet => .ok (.build .set i.arg)
  | .buildMap => .ok (.build .map i.arg)
  | .buildConstKeyMap => .ok (.build .constKeyMap i.arg)
  | .buildString => .ok (.build .string i.arg)
  | .buildSlice => (argWhen i (i.arg == 2 || i.arg == 3)).map (.build .slice)
  | .listToTuple => .ok .listToTuple
  | .listAppend => .ok (.update .listAppend i.arg)
  | .setAdd => .ok (.update .setAdd i.arg)
  | .mapAdd => .ok (.update .mapAdd i.arg)
  | .listExtend => .ok (.update .listExtend i.arg)
  | .setUpdate => .ok (.update .setUpdate i.arg)
  | .dictMerge => .ok (.update .dictMerge i.arg)
  | .dictUpdate => .ok (.update .dictUpdate i.arg)
  | .unpackSequence => .ok (.unpackSequence i.arg)
  | .unpackEx => .ok (.unpackEx (i.arg % 256) (i.arg / 256))
  | .formatValue => .ok (.formatValue i.arg)
  | .callFunction => .ok (.callFunction i.arg)
  | .callFunctionKw => .ok (.callFunctionKw i.arg)
  | .callFunctionEx => .ok (.callFunctionEx (i.arg % 2 == 1))
  | .callMethod => .ok (.callMethod i.arg)
  | .makeFunction => .ok (.makeFunction i.arg)
  | .jumpForward => (targetOf i).map .jump
  | .jumpAbsolute => (targetOf i).map .jump
  | .popJumpIfFalse => (targetOf i).map (.popJumpIf false)
  | .popJumpIfTrue => (targetOf i).map (.popJumpIf true)
  | .jumpIfFalseOrPop => (targetOf i).map (.jumpIfOrPop false)
  | .jumpIfTrueOrPop => (targetOf i).map (.jumpIfOrPop true)
  | .jumpIfNotExcMatch => (targetOf i).map .jumpIfNotExcMatch
  | .returnValue => .ok .returnValue
  | .setupFinally => (targetOf i).map fun h => .setupFinally h .tryBlock 0
  | .setupWith => (targetOf i).map .setupWith
  | .popBlock => .ok .popBlock
  | .popExcept => .ok .popExcept
  | .reraisePlain => .ok (.reraise false)
  | .reraise => .ok (.reraise (i.arg != 0))
  | .raiseVarargs => (argWhen i (i.arg ≤ 2)).map .raiseVarargs
  | .withExceptStart => .ok .withExceptStart
  | .yieldValue => .ok .yieldValue
  | .yieldFrom => .ok .yieldFrom
  | .genStart => .ok (.genStart i.arg)
  | op =>
    match binaryOf? op with
    | some (b, inplace) => .ok (.binary b inplace)
    | none => .error (.bytecode (.unsupportedOpcode op i.offset))

end Operands

end Op

namespace Body

/-- Writes the operations of instructions. -/
def write (c : CodeObject) : BodyWriter → List Instruction → Except BodyError BodyWriter
  | r, [] => .ok r
  | r, i :: is =>
    match Op.decode i c with
    | .error e => .error e
    | .ok op => write c ((r.startOn i.offset).push op i.line (some i.offset)) is

/-- The body of a code object, and where the offsets of its instructions went. -/
def decode (c : CodeObject) : Except BodyError (List Instr × OffsetMap) :=
  match c.unsupportedKind? with
  | some kind => .error (.unsupportedCode kind)
  | none =>
    match InstructionStream.decode c with
    | .error e => .error (.bytecode e)
    | .ok s =>
      match write c BodyWriter.empty s.instructions with
      | .error e => .error e
      | .ok r => r.finish

end Body

end Stackwise
