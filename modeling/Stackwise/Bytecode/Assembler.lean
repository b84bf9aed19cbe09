import Stackwise.Bytecode.Code
import Stackwise.Bytecode.Comparison
import Stackwise.Bytecode.Error

/-!
# Assembler

Builds a code object from instructions with symbolic labels, filling the constant, name and
variable tables on the way.

* **Tables.** Names, variables and scalar constants are entered once; floats are told apart by
  their bits, and constants with parts are always entered anew.
* **Layout.** A jump operand depends on the sizes of the instructions between the jump and its
  target, and the size of a jump depends on its operand. `settle` starts from the smallest sizes
  and enlarges each instruction that its operand outgrows until nothing changes.
* **Lines.** Consecutive instructions on one line share an entry of the line table.
-/

namespace Stackwise

/-- An instruction operand before layout. -/
inductive Operand where
  /-- A number. -/
  | immediate (value : Nat)
  /-- A jump to a label. -/
  | label (id : Nat)
  deriving DecidableEq, Repr

/-- An instruction before layout. -/
structure AsmItem where
  /-- The operation. -/
  opcode : Opcode
  /-- Its operand. -/
  operand : Operand
  /-- Its source line. -/
  line : Nat
  deriving Repr

/-- A code object in the making. -/
structure Assembler where
  /-- The name of the function. -/
  name : String
  /-- The name with the names of the enclosing scopes. -/
  qualname : String
  /-- Whether the qualified name is a text of its own. -/
  ownQualname : Bool := false
  /-- The file of the source. -/
  filename : String := "<unknown>"
  /-- The first source line. -/
  firstLine : Nat := 1
  /-- The source line of the next instruction. -/
  line : Nat := 1
  /-- The dialect. -/
  dialect : Dialect := default
  /-- The instructions so far. -/
  items : Array AsmItem := #[]
  /-- The constant table. -/
  constants : List Constant := []
  /-- The names of the locals. -/
  varnames : List String := []
  /-- Global and attribute names. -/
  names : List String := []
  /-- The locals that inner functions capture. -/
  cellvars : List String := []
  /-- The captured variables of the enclosing scope. -/
  freevars : List String := []
  /-- Number of positional parameters. -/
  argCount : Nat := 0
  /-- Number of parameters that cannot be given by keyword. -/
  posonlyCount : Nat := 0
  /-- Number of parameters that can only be given by keyword. -/
  kwonlyCount : Nat := 0
  /-- Properties. -/
  flags : CodeFlags := CodeFlags.function
  /-- Where each label stands, as a position in the instructions; the latest binding first. -/
  labels : List (Nat × Nat) := []

namespace Assembler

/-- An assembler for a function called `name`. -/
def start (name : String) : Assembler := { name, qualname := name }

/-! ## 1. Tables -/

/-- Position of `name` in a table, entering it at the end if it is new. -/
def intern (table : List String) (name : String) : Nat × List String :=
  match table.findIdx? (· == name) with
  | some i => (i, table)
  | none => (table.length, table ++ [name])

/-- Whether two constants share an entry: scalars of the same kind and content, floats by bits. -/
def sharesEntry : Constant → Constant → Bool
  | .none, .none => true
  | .bool a, .bool b => a == b
  | .int a, .int b => a == b
  | .float a, .float b => a == b
  | .str a, .str b => a == b
  | _, _ => false

/-- Enters a constant and gives its position. -/
def addConstant (a : Assembler) (c : Constant) : Nat × Assembler :=
  match a.constants.findIdx? (sharesEntry · c) with
  | some i => (i, a)
  | none => (a.constants.length, { a with constants := a.constants ++ [c] })

/-- Enters a local variable and gives its slot. -/
def defineLocal (a : Assembler) (name : String) : Nat × Assembler :=
  let (i, varnames) := intern a.varnames name
  (i, { a with varnames })

/-- Enters a global or attribute name and gives its position. -/
def addName (a : Assembler) (name : String) : Nat × Assembler :=
  let (i, names) := intern a.names name
  (i, { a with names })

/-- Enters a cell variable and gives its closure slot. -/
def addCellvar (a : Assembler) (name : String) : Nat × Assembler :=
  let (i, cellvars) := intern a.cellvars name
  (i, { a with cellvars })

/-- Enters a captured variable and gives its closure slot, which counts the cells so far. -/
def addFreevar (a : Assembler) (name : String) : Nat × Assembler :=
  let (i, freevars) := intern a.freevars name
  (a.cellvars.length + i, { a with freevars })

/-- Declares the positional parameters, which become the first locals. -/
def setParams (a : Assembler) (params : List String) : Assembler :=
  { params.foldl (fun a p => (a.defineLocal p).2) a with argCount := params.length % 0x10000 }

/-- Sets the first source line. -/
def setFirstLine (a : Assembler) (line : Nat) : Assembler := { a with firstLine := line, line }

/-- Sets properties. -/
def addFlags (a : Assembler) (bits : Nat) : Assembler := { a with flags := a.flags.add bits }

/-! ## 2. Instructions -/

/-- Binds a label to the position of the next instruction. -/
def bindLabel (a : Assembler) (label : Nat) : Assembler :=
  { a with labels := (label, a.items.size) :: a.labels }

/-- Appends an instruction; an operation without operand gets zero. -/
def emit (a : Assembler) (op : Opcode) (arg : Nat) : Assembler :=
  let item : AsmItem :=
    { opcode := op, operand := .immediate (if op.hasArg then arg else 0), line := a.line }
  { a with items := a.items.push item }

/-- Appends a jump to a label. -/
def emitJump (a : Assembler) (op : Opcode) (label : Nat) : Assembler :=
  let item : AsmItem := { opcode := op, operand := .label label, line := a.line }
  { a with items := a.items.push item }

/-- Appends an instruction whose operand is a constant. -/
def emitConstant (a : Assembler) (op : Opcode) (c : Constant) : Assembler :=
  let (i, a) := a.addConstant c
  a.emit op i

/-- Appends an instruction whose operand is a name. -/
def emitName (a : Assembler) (op : Opcode) (name : String) : Assembler :=
  let (i, a) := a.addName name
  a.emit op i

/-- Appends an instruction whose operand is a local variable. -/
def emitLocal (a : Assembler) (op : Opcode) (name : String) : Assembler :=
  let (i, a) := a.defineLocal name
  a.emit op i

/-- Appends a comparison. -/
def emitComparison (a : Assembler) (c : Comparison) : Assembler := a.emit .compareOp c.arg

/-! ## 3. Layout -/

/-- Number of operand extensions that an operand needs. -/
def extensions (arg : Nat) : Nat :=
  if arg ≤ 0xff then 0 else if arg ≤ 0xffff then 1 else if arg ≤ 0xffffff then 2 else 3

/-- An instruction whose label is resolved to a position in the instructions. -/
structure Resolved where
  /-- The operation. -/
  opcode : Opcode
  /-- A number, or the position of the instruction that is jumped to. -/
  operand : Nat ⊕ Nat
  /-- The source line. -/
  line : Nat

/-- Resolves the labels, or reports the first that stands nowhere. -/
def resolve (a : Assembler) : Except BytecodeError (List Resolved) :=
  a.items.toList.mapM fun item =>
    match item.operand with
    | .immediate n => .ok { opcode := item.opcode, operand := .inl n, line := item.line }
    | .label l =>
      match a.labels.lookup l with
      | some t => .ok { opcode := item.opcode, operand := .inr t, line := item.line }
      | none => .error (.unboundLabel l)

/-- The least size of an instruction. -/
def leastSize (item : Resolved) : Nat :=
  match item.operand with
  | .inl n => 1 + extensions n
  | .inr _ => 1

/-- The offsets that sizes give, starting at `from_`; one more entry is the end of the code. -/
def offsetsFrom (from_ : Nat) : List Nat → List Nat
  | [] => [from_]
  | s :: ss => from_ :: offsetsFrom (from_ + s) ss

/-- The operand of an instruction at `offset` with the given size. -/
def operandOf (d : Dialect) (offsets : Array Nat) (item : Resolved) (offset size : Nat) :
    Except BytecodeError Nat :=
  match item.operand with
  | .inl n => .ok n
  | .inr t =>
    let target := offsets.getD t 0
    let fault := BytecodeError.invalidJumpTarget offset target
    let distance : Except BytecodeError Nat :=
      match item.opcode.jumpKind? with
      | some .relative => if target < offset + size then .error fault
        else .ok (target - (offset + size))
      | _ => .ok target
    match distance with
    | .error e => .error e
    | .ok units =>
      match d.unitsToJumpArg? units with
      | some arg => .ok arg
      | none => .error fault

/-- The operands that sizes give. -/
def operandsOf (d : Dialect) (items : List Resolved) (sizes : List Nat) :
    Except BytecodeError (List Nat) :=
  let offsets := offsetsFrom 0 sizes
  let table := offsets.toArray
  (items.zip (offsets.zip sizes)).mapM fun (item, offset, size) =>
    operandOf d table item offset size

/-- Enlarges every size that its operand outgrows. -/
def grow (sizes args : List Nat) : List Nat :=
  (sizes.zip args).map fun (s, a) => max s (1 + extensions a)

/-- Enlarges sizes until every operand fits and gives the sizes and operands. A size is enlarged
at most three times, so three rounds per instruction are enough. -/
def settle (d : Dialect) (items : List Resolved) : Nat → List Nat →
    Except BytecodeError (List Nat × List Nat)
  | 0, sizes =>
    match operandsOf d items sizes with
    | .error e => .error e
    | .ok args => .ok (sizes, args)
  | rounds + 1, sizes =>
    match operandsOf d items sizes with
    | .error e => .error e
    | .ok args =>
      let grown := grow sizes args
      if grown = sizes then .ok (sizes, args) else settle d items rounds grown

/-! ## 4. Bytes -/

/-- The code units of an instruction of the given size: extensions from the highest byte down. -/
def encode (op : Opcode) (size arg : Nat) : List UInt8 :=
  ((List.range (size - 1)).reverse.flatMap fun i =>
    [Opcode.extendedArg.byte, UInt8.ofNat (arg / Nat.pow 256 (i + 1))])
    ++ [op.byte, UInt8.ofNat arg]

/-- Adds the units from `start` to `stop` on a source line to a line table (reversed). -/
def addLine (table : List LineEntry) (start stop line : Nat) : List LineEntry :=
  match table with
  | e :: es => if e.line = line then { e with stop } :: es else ⟨start, stop, line⟩ :: table
  | [] => [⟨start, stop, line⟩]

/-- The line table of instructions at the given offsets. -/
def linesOf (items : List Resolved) (offsets sizes : List Nat) : List LineEntry :=
  ((items.zip (offsets.zip sizes)).foldl
    (fun table (item, o, s) => addLine table o (o + s) item.line) []).reverse

/-- Lays the instructions out and gives the code object with the given serial number. -/
def finish (a : Assembler) (serial : Nat) : Except BytecodeError CodeObject := do
  let items ← a.resolve
  let (sizes, args) ← settle a.dialect items (3 * items.length) (items.map leastSize)
  let yields := items.any fun i => i.opcode == .yieldValue || i.opcode == .yieldFrom
  let flags := if yields then a.flags.add CodeFlags.generatorBit else a.flags
  let flags := if a.cellvars.isEmpty && a.freevars.isEmpty then flags.add CodeFlags.nofreeBit
    else flags
  return {
    serial
    name := a.name
    qualname := a.qualname
    ownQualname := a.ownQualname
    filename := a.filename
    firstLine := a.firstLine
    dialect := a.dialect
    code := (items.zip (sizes.zip args)).flatMap fun (i, s, arg) => encode i.opcode s arg
    constants := a.constants
    names := a.names
    varnames := a.varnames
    cellvars := a.cellvars
    freevars := a.freevars
    argCount := a.argCount
    posonlyCount := a.posonlyCount
    kwonlyCount := a.kwonlyCount
    flags
    lineTable := linesOf items (offsetsFrom 0 sizes) sizes }

end Assembler

end Stackwise
