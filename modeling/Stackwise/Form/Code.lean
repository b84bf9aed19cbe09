import Stackwise.Bytecode.Assembler
import Stackwise.Bytecode.Stream
import Stackwise.Form.Basic

/-!
# Code objects in forms

A code object is written as an assembly (`asm` and what surrounds it), as its bare fields (`raw`),
or by the name of one that was read before. Reading numbers the objects in the order in which they
are made, so that a name always means the same object and a written form a new one.
-/

namespace Stackwise

/-- The code objects read so far. -/
structure CodeTable where
  /-- The number of the next object. -/
  serial : Nat := 1
  /-- Objects by name, the latest first. -/
  named : List (String × CodeObject) := []
  deriving Inhabited

/-- Reading that may make code objects. -/
abbrev Reading := StateT CodeTable (Except ReadError)

namespace Form

/-- A number for a new code object. -/
def newSerial : Reading Nat :=
  modifyGet fun t => (t.serial, { t with serial := t.serial + 1 })

/-- Reads a dialect; nothing stands for the default one. -/
def toDialect (f : Form) : Except ReadError Dialect := do
  if f.isNull then return default
  let s ← f.toText
  match Dialect.parse s with
  | .ok d => return d
  | .error s => throw (.dialect s)

/-- Reads an entry of a line table. -/
def toLineEntry (f : Form) : Except ReadError LineEntry :=
  return ⟨← (f.item 0).toNat, ← (f.item 1).toNat, ← (f.item 2).toNat⟩

/-- Reads the fields of an assembly that stand before its instructions; gives the closure slots of
names too. -/
def toAssembler (f : Form) : Except ReadError (Assembler × List (String × Nat)) := do
  let a := Assembler.start (← f.fieldOr "name" "f" toText)
  let a := { a with
    qualname := ← f.fieldOr "qualname" a.qualname toText
    ownQualname := f.has "qualname"
    filename := ← f.fieldOr "filename" a.filename toText }
  let a ← if f.has "first_lineno" then a.setFirstLine <$> (f.field "first_lineno").toNat else .ok a
  let a := { a with dialect := ← (f.field "version").toDialect }
  let a ← if f.has "params" then a.setParams <$> (f.field "params").toTexts else .ok a
  let a := { a with
    posonlyCount := ← f.fieldOr "posonly" a.posonlyCount toNat
    kwonlyCount := ← f.fieldOr "kwonly" a.kwonlyCount toNat }
  let a ← if f.has "flags" then a.addFlags <$> (f.field "flags").toNat else .ok a
  let (a, cells) := (← (f.field "cellvars").toTexts).foldl (fun (a, cells) x =>
    let (i, a) := a.addCellvar x
    (a, (x, i) :: cells)) (a, [])
  return (← (f.field "freevars").toTexts).foldl (fun (a, cells) x =>
    let (i, a) := a.addFreevar x
    (a, if (cells.lookup x).isSome then cells else cells ++ [(x, i)])) (a, cells)

/-- Reads the operand of an opcode and emits the instruction. -/
def emitTo (cells : List (String × Nat)) (a : Assembler) (op : Opcode) (arg : Form) :
    Except ReadError Assembler := do
  match arg with
  | .null => return a.emit op 0
  | .int _ => return a.emit op (← arg.toNat)
  | _ =>
    if arg.has "to" then return a.emitJump op (← (arg.field "to").toNat)
    else if arg.has "name" then return a.emitName op (← (arg.field "name").toText)
    else if arg.has "local" then return a.emitLocal op (← (arg.field "local").toText)
    else
      match cells.lookup (← (arg.field "cell").toText) with
      | some i => return a.emit op i
      | none => expected "closure variable"

/-- Replaces counts and flags of a code object. -/
def patch (c : CodeObject) (f : Form) : Except ReadError CodeObject := do
  let word (name : String) (limit old : Nat) : Except ReadError Nat :=
    (f.fieldOr name old toNat).map (· % limit)
  return { c with
    argCount := ← word "arg_count" 0x10000 c.argCount
    posonlyCount := ← word "posonly" 0x10000 c.posonlyCount
    kwonlyCount := ← word "kwonly" 0x10000 c.kwonlyCount
    flags := ⟨← word "flags" 0x100000000 c.flags.bits⟩ }

mutual

/-- Reads a constant. -/
def readConstant : Nat → Form → Reading Constant
  | 0, _ => expected "constant"
  | fuel + 1, f =>
    match f with
    | .null => return .none
    | .bool b => return .bool b
    | .int n => return .int (Int64.ofInt n)
    | .text s => return .str s
    | .list _ => expected "constant"
    | .fields _ => do
      if f.has "f" then return .float (← (f.field "f").toDouble)
      else if f.has "bytes" then return .bytes (← (f.field "bytes").toBytes)
      else if f.has "t" then return .tuple (← (← (f.field "t").toList).mapM (readConstant fuel))
      else if f.has "ellipsis" then return .ellipsis
      else return .code (← readCode fuel (f.field "code"))

/-- Reads a code object. -/
def readCode : Nat → Form → Reading CodeObject
  | 0, _ => expected "code object"
  | fuel + 1, f =>
    match f with
    | .text name => do
      match (← get).named.lookup name with
      | some c => return c
      | none => expected "name of a code object"
    | _ => do
      let c ← if f.has "raw" then readRaw fuel (f.field "raw") else readAssembly fuel f
      patch c (f.field "patch")

/-- Reads a code object from its bare fields. -/
def readRaw : Nat → Form → Reading CodeObject
  | 0, _ => expected "code object"
  | fuel + 1, f => do
    let name ← f.fieldOr "name" "f" toText
    let blank := CodeObject.blank 0 name (← f.fieldOr "filename" "f.py" toText)
    let constants ← (← (f.field "constants").toList).mapM (readConstant fuel)
    return { blank with
      serial := ← newSerial
      qualname := ← f.fieldOr "qualname" name toText
      ownQualname := f.has "qualname"
      firstLine := ← f.fieldOr "first_lineno" 1 toNat
      dialect := ← (f.field "version").toDialect
      code := ← f.fieldOr "code" [] toBytes
      constants
      names := ← (f.field "names").toTexts
      varnames := ← (f.field "varnames").toTexts
      cellvars := ← (f.field "cellvars").toTexts
      freevars := ← (f.field "freevars").toTexts
      argCount := ← f.fieldOr "arg_count" 0 toNat
      posonlyCount := ← f.fieldOr "posonly" 0 toNat
      kwonlyCount := ← f.fieldOr "kwonly" 0 toNat
      flags := ⟨← f.fieldOr "flags" blank.flags.bits toNat⟩
      lineTable := ← (← (f.field "line_table").toList).mapM fun e => toLineEntry e }

/-- Reads and lays out an assembly. -/
def readAssembly : Nat → Form → Reading CodeObject
  | 0, _ => expected "assembly"
  | fuel + 1, f => do
    let (a, cells) ← f.toAssembler
    let a ← (← (f.field "asm").toList).foldlM (readItem fuel cells) a
    match a.finish (← newSerial) with
    | .ok c => return c
    | .error e => throw (.bytecode e)

/-- Reads one item of an assembly. -/
def readItem : Nat → List (String × Nat) → Assembler → Form → Reading Assembler
  | 0, _, _, _ => expected "item of an assembly"
  | fuel + 1, cells, a, f => do
    let arg := f.item 1
    match ← (f.item 0).toText with
    | "repeat" =>
      (List.replicate (← arg.toNat) (f.item 2)).foldlM (readItem fuel cells) a
    | "label" => return a.bindLabel (← arg.toNat)
    | "line" => return { a with line := ← arg.toNat }
    | "const" => return a.emitConstant .loadConst (← readConstant fuel arg)
    | "fast" => return a.emitLocal .loadFast (← arg.toText)
    | "store" => return a.emitLocal .storeFast (← arg.toText)
    | "global" => return a.emitName .loadGlobal (← arg.toText)
    | "attr" => return a.emitName .loadAttr (← arg.toText)
    | "method" => return a.emitName .loadMethod (← arg.toText)
    | "compare" =>
      match Comparison.ofArg? (← arg.toNat) with
      | some c => return a.emitComparison c
      | none => expected "comparison"
    | "add_const" => return (a.addConstant (← readConstant fuel arg)).2
    | "add_name" => return (a.addName (← arg.toText)).2
    | "add_local" => return (a.defineLocal (← arg.toText)).2
    | name =>
      match Opcode.ofMnemonic? name a.dialect with
      | some op => emitTo cells a op arg
      | none => expected "opcode"

end

/-- Fuel for reading a form. -/
def readFuel (f : Form) : Nat := 3 * f.depth + 3

/-- Reads a constant. -/
def toConstant (f : Form) : Reading Constant := readConstant f.readFuel f

/-- Reads a code object. -/
def toCode (f : Form) : Reading CodeObject := readCode f.readFuel f

/-- Reads pairs of a name and a code object, in order; each may use those before it. -/
def nameCodes (f : Form) : Reading Unit := do
  for entry in ← f.toList do
    let code ← (entry.item 1).toCode
    let name ← (entry.item 0).toText
    modify fun t => { t with named := (name, code) :: t.named }

mutual

/-- The form of a constant; a code object is shown by its name. -/
def constant : Constant → Form
  | .none => .null
  | .bool b => .bool b
  | .int n => .int n.toInt
  | .float x => .float x
  | .str s => .text s
  | .bytes b => .bytes b
  | .tuple items => .fields [("t", .list (constantItems items))]
  | .ellipsis => .fields [("ellipsis", .bool true)]
  | .code c => .fields [("code", .text c.name)]

/-- The forms of constants. -/
def constantItems : List Constant → List Form
  | [] => []
  | c :: cs => constant c :: constantItems cs

end

end Form

/-- The form of a code object. -/
def CodeObject.form (c : CodeObject) : Form := .fields [
  ("name", .text c.name), ("qualname", .text c.qualname), ("filename", .text c.filename),
  ("first_lineno", .nat c.firstLine), ("version", .text c.dialect.text),
  ("code", .text (Form.hexText c.code)), ("constants", .list (Form.constantItems c.constants)),
  ("names", .texts c.names), ("varnames", .texts c.varnames), ("cellvars", .texts c.cellvars),
  ("freevars", .texts c.freevars), ("arg_count", .nat c.argCount),
  ("posonly", .nat c.posonlyCount), ("kwonly", .nat c.kwonlyCount),
  ("flags", .nat c.flags.bits), ("units", .nat c.units),
  ("generator", .bool c.isGenerator), ("total_params", .nat c.totalParams),
  ("locals", .nat c.localCount), ("closure", .nat c.closureSize),
  ("closure_names",
    .listOf (fun i => .opt .text (c.closureName? i)) (List.range (c.closureSize + 1))),
  ("unsupported", .opt .text c.unsupportedKind?),
  ("line_table", .listOf (fun e => .nats [e.start, e.stop, e.line]) c.lineTable)]

/-- The form of an instruction of a code object. -/
def Instruction.form (c : CodeObject) (i : Instruction) : Form := .list [
  .nat i.offset, .text i.opcode.mnemonic, .nat i.arg, .nat i.size, .opt .nat i.target,
  .bool i.isJumpTarget, .opt .nat i.line, .text (i.text c)]

/-- The form of an instruction stream, with the positions of its first offsets. -/
def InstructionStream.form (c : CodeObject) (s : InstructionStream) : Form := .fields [
  ("version", .text s.dialect.text), ("len", .nat s.size), ("end", .nat s.endOffset),
  ("instructions", .listOf (Instruction.form c) s.instructions),
  ("index_of", .listOf (fun o => .opt .nat (s.indexOf? o)) (List.range (min s.endOffset 40 + 1)))]

/-- The form of an opcode. -/
def Opcode.form (op : Opcode) : Form := .fields [
  ("name", .text op.mnemonic), ("byte", .nat op.byte.toNat), ("has_arg", .bool op.hasArg),
  ("supported", .bool op.isSupported), ("jump", .opt (fun k => .text k.text) op.jumpKind?),
  ("in", .list [.bool (op.existsIn .v39), .bool (op.existsIn .v310)])]

end Stackwise
