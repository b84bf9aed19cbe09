import Std.Data.HashSet
import Stackwise.Bytecode.Code
import Stackwise.Bytecode.Comparison
import Stackwise.Bytecode.Error

/-!
# Instruction streams

Decoding splits the bytes into code units, folds operand extensions into the instruction they
extend, resolves every jump to an offset and marks the instructions that are jumped to.

* Offsets count code units in both dialects, so nothing after decoding sees the difference.
* An instruction stands at its first extension, which is where jumps to it point.
* Relative jumps count from the unit after the opcode.
* Faults are reported in the order of the units; jump targets are checked after all of them.
-/

namespace Stackwise

/-- One decoded instruction. -/
structure Instruction where
  /-- Offset of its first code unit. -/
  offset : Nat
  /-- The operation. -/
  opcode : Opcode
  /-- The operand, extensions folded in; zero if the operation has none. -/
  arg : Nat
  /-- Number of code units, extensions included. -/
  size : Nat
  /-- Offset of the jump target, for jumps. -/
  target : Option Nat
  /-- Whether some jump lands here. -/
  isJumpTarget : Bool
  /-- The source line. -/
  line : Option Nat
  deriving DecidableEq, Repr

/-- The instructions of a code object in order. -/
structure InstructionStream where
  /-- The dialect they were decoded from. -/
  dialect : Dialect
  /-- The instructions. -/
  instructions : List Instruction
  deriving Repr

namespace Instruction

/-- Offset of the following instruction. -/
def next (i : Instruction) : Nat := i.offset + i.size

/-- What the operand stands for in the tables of the code object. -/
def operandText? (i : Instruction) (c : CodeObject) : Option String :=
  match i.opcode with
  | .loadConst => c.constants[i.arg]?.map Constant.text
  | .loadFast | .storeFast | .deleteFast => c.varnames[i.arg]?
  | .loadDeref | .storeDeref | .deleteDeref | .loadClosure | .loadClassDeref => c.closureName? i.arg
  | .loadName | .storeName | .deleteName | .loadGlobal | .storeGlobal | .deleteGlobal | .loadAttr
  | .storeAttr | .deleteAttr | .loadMethod | .importName | .importFrom => c.names[i.arg]?
  | .compareOp => (Comparison.ofArg? i.arg).map Comparison.symbol
  | _ => none

/-- A text in brackets after a blank, or nothing. -/
def remark : Option String → String
  | some s => " (" ++ s ++ ")"
  | none => ""

/-- The text of an instruction with its operand looked up. -/
def text (i : Instruction) (c : CodeObject) : String :=
  if i.opcode.hasArg then
    Text.padRight 24 i.opcode.mnemonic ++ " " ++ toString i.arg
      ++ remark (i.operandText? c) ++ remark (i.target.map fun t => "to " ++ toString t)
  else i.opcode.mnemonic

end Instruction

namespace InstructionStream

/-! ## 1. Jumps -/

/-- The offset that a jump operand names, `unit` being the offset of its opcode. In the older
dialect an operand that ends inside a code unit names nothing. -/
def resolveJump? (d : Dialect) (kind : JumpKind) (unit arg : Nat) : Option Nat :=
  if d == .v39 && arg % 2 != 0 then none
  else
    (d.jumpArgToUnits? arg).bind fun units =>
      match kind with
      | .absolute => some units
      | .relative => if units + (unit + 1) < wordLimit then some (units + (unit + 1)) else none

/-! ## 2. Folding -/

/-- The code units of a byte string of even length. -/
def unitsOf : List UInt8 → List (UInt8 × UInt8)
  | a :: b :: rest => (a, b) :: unitsOf rest
  | _ => []

/-- What has been read of an instruction whose opcode has not come yet. -/
structure Extension where
  /-- The operand bytes so far, moved up by one byte; only 32 bits are kept. -/
  arg : Nat := 0
  /-- Offset of the first extension. -/
  start : Option Nat := none
  deriving DecidableEq, Repr

/-- Adds an operand byte to an extension. -/
def Extension.push (x : Extension) (unit : Nat) (b : UInt8) : Extension :=
  { arg := (x.arg + b.toNat) * 256 % wordLimit, start := some (x.start.getD unit) }

/-- The instruction whose opcode stands at `unit`. -/
def complete (c : CodeObject) (x : Extension) (unit : Nat) (op : Opcode) (b : UInt8) :
    Except BytecodeError Instruction :=
  let offset := x.start.getD unit
  if !op.isSupported then .error (.unsupportedOpcode op offset)
  else
    let arg := if op.hasArg then x.arg + b.toNat else 0
    let make (target : Option Nat) : Instruction :=
      { offset, opcode := op, arg, size := unit + 1 - offset, target, isJumpTarget := false,
        line := c.lineAt? offset }
    match op.jumpKind? with
    | none => .ok (make none)
    | some kind =>
      match resolveJump? c.dialect kind unit arg with
      | some t => .ok (make (some t))
      | none => .error (.invalidJumpTarget offset arg)

/-- Folds the units from offset `unit` on into instructions, after those in `done` (reversed). -/
def fold (c : CodeObject) : Nat → Extension → List Instruction → List (UInt8 × UInt8) →
    Except BytecodeError (List Instruction)
  | _, x, done, [] =>
    match x.start with
    | some o => .error (.danglingExtension o)
    | none => .ok done.reverse
  | unit, x, done, (a, b) :: rest =>
    match Opcode.ofByte? a c.dialect with
    | none => .error (.unknownOpcode a unit c.dialect)
    | some .extendedArg => fold c (unit + 1) (x.push unit b) done rest
    | some op =>
      match complete c x unit op b with
      | .error e => .error e
      | .ok i => fold c (unit + 1) {} (i :: done) rest

/-! ## 3. Decoding -/

/-- The offsets of the instructions. -/
def starts (is : List Instruction) : Std.HashSet Nat := Std.HashSet.ofList (is.map (·.offset))

/-- The first jump that lands on no instruction. -/
def strayJump? (is : List Instruction) : Option (Nat × Nat) :=
  let starts := starts is
  is.findSome? fun i =>
    match i.target with
    | some t => if starts.contains t then none else some (i.offset, t)
    | none => none

/-- Marks the instructions that some jump lands on. -/
def markTargets (is : List Instruction) : List Instruction :=
  let targets := Std.HashSet.ofList (is.filterMap (·.target))
  is.map fun i => { i with isJumpTarget := targets.contains i.offset }

/-- Decodes the instructions of a code object. -/
def decode (c : CodeObject) : Except BytecodeError InstructionStream := do
  if c.code.length % 2 != 0 then throw (.truncated c.code.length)
  if c.code.isEmpty then throw .empty
  let is ← fold c 0 {} [] (unitsOf c.code)
  match strayJump? is with
  | some (o, t) => throw (.invalidJumpTarget o t)
  | none => return { dialect := c.dialect, instructions := markTargets is }

/-! ## 4. Queries -/

/-- Number of instructions. -/
def size (s : InstructionStream) : Nat := s.instructions.length

/-- Position of the instruction at `offset`. -/
def indexOf? (s : InstructionStream) (offset : Nat) : Option Nat :=
  s.instructions.findIdx? (·.offset == offset)

/-- Offset one past the last instruction. -/
def endOffset (s : InstructionStream) : Nat :=
  match s.instructions.getLast? with
  | some i => i.next
  | none => 0

end InstructionStream

end Stackwise
