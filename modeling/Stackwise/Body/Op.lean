import Stackwise.Body.Operator
import Stackwise.Bytecode.Comparison
import Stackwise.Bytecode.OffsetMap
import Stackwise.Text.Quoted

/-!
# Operations of a function body

A body is a list of operations whose operands are resolved: names are names, and jump targets are
offsets in the list itself. Some operations never come out of a code object; the passes over a body
bring them in:

* `loadSpecial` looks a special method up on the type of the top value;
* `resumeDispatch`, `suspend`, `resumePoint` and `delegate` make a generator a state machine.

Every question about control flow is answered here: which offsets an operation names
(`branchTarget?`, `handlerTarget?`, `targets`), whether control can go on to the next operation
(`isForcedJump`), and whether an exception can arise (`mayRaise`). `relabel` moves an operation to a
new list of offsets.
-/

namespace Stackwise

/-! ## 1. Operations -/

/-- What a protected block is for. -/
inductive BlockKind where
  /-- An `except` or `finally` clause. -/
  | tryBlock
  /-- The exit of a `with` statement. -/
  | withBlock
  deriving DecidableEq, Hashable, Repr

/-- The text of a block kind. -/
def BlockKind.text : BlockKind → String
  | .tryBlock => "Try"
  | .withBlock => "With"

/-- What a building operation makes of the values it takes. -/
inductive Shape where
  | tuple | list | set | map | constKeyMap | string | slice
  deriving DecidableEq, Hashable, Repr

/-- How an updating operation changes a collection further down the stack. -/
inductive Update where
  | listAppend | setAdd | mapAdd | listExtend | setUpdate | dictMerge | dictUpdate
  deriving DecidableEq, Hashable, Repr

/-- One operation with its operands. -/
inductive Op where
  | popTop
  | rotTwo
  | rotThree
  | rotFour
  /-- Moves the top value down so that it becomes the `n`-th from the top. -/
  | rotN (n : Nat)
  | dupTop
  | dupTopTwo
  | nop
  | unary (op : UnaryOp)
  | binary (op : BinaryOp) (inplace : Bool)
  | binarySubscr
  | storeSubscr
  | deleteSubscr
  | compare (op : Comparison)
  | isOp (invert : Bool)
  | containsOp (invert : Bool)
  | getIter
  | getYieldFromIter
  /-- Pushes the next item, or pops the iterator and jumps. -/
  | forIter (exit : Nat)
  | loadConst (index : Nat)
  | loadFast (slot : Nat)
  | storeFast (slot : Nat)
  | deleteFast (slot : Nat)
  | loadDeref (slot : Nat)
  | storeDeref (slot : Nat)
  | deleteDeref (slot : Nat)
  | loadClosure (slot : Nat)
  | loadClassDeref (slot : Nat)
  /-- Pushes a global. The entry of the name table tells apart texts of the same content. -/
  | loadGlobal (name : String) (entry : Nat)
  | storeGlobal (name : String)
  | deleteGlobal (name : String)
  /-- Pushes a global from a module body; the entry is that of the name table. -/
  | loadName (name : String) (entry : Nat)
  | storeName (name : String)
  | deleteName (name : String)
  | loadAttr (name : String)
  | storeAttr (name : String)
  | deleteAttr (name : String)
  | loadMethod (name : String)
  | loadBuildClass
  | loadAssertionError
  | importName (name : String)
  | importFrom (name : String)
  | importStar
  | setupAnnotations
  | printExpr
  | build (shape : Shape) (count : Nat)
  | listToTuple
  /-- Updates the collection `depth` values down, the operands already taken. -/
  | update (kind : Update) (depth : Nat)
  | unpackSequence (count : Nat)
  | unpackEx (before after : Nat)
  | formatValue (flags : Nat)
  | callFunction (argc : Nat)
  | callFunctionKw (argc : Nat)
  | callFunctionEx (kwargs : Bool)
  | callMethod (argc : Nat)
  | makeFunction (flags : Nat)
  | jump (target : Nat)
  | popJumpIf (on : Bool) (target : Nat)
  | jumpIfOrPop (on : Bool) (target : Nat)
  | jumpIfNotExcMatch (target : Nat)
  | returnValue
  /-- Opens a protected block; the topmost `reserve` values stay outside it. -/
  | setupFinally (handler : Nat) (kind : BlockKind) (reserve : Nat)
  | setupWith (handler : Nat)
  | popBlock
  | popExcept
  | reraise (restoreLasti : Bool)
  | raiseVarargs (count : Nat)
  | withExceptStart
  | yieldValue
  | yieldFrom
  | genStart (kind : Nat)
  /-- Looks a special method up on the type of the top value and binds it. -/
  | loadSpecial (name : String)
  /-- The one entry of a state machine: pairs of a state and where it resumes. -/
  | resumeDispatch (states : List (Nat × Nat))
  /-- Saves the state and hands the top value to the caller. -/
  | suspend (state : Nat)
  /-- Goes on after a suspension with the value sent or the exception thrown. -/
  | resumePoint (state : Nat)
  /-- Hands the top value to the iterator below it and suspends on its answer, or jumps with its
  result. -/
  | delegate (state exit : Nat)
  deriving DecidableEq, Repr

/-- An operation at its place in a body. -/
structure Instr where
  /-- Position in the body. -/
  offset : Nat
  /-- The operation. -/
  op : Op
  /-- The source line. -/
  line : Option Nat
  /-- Offset of the instruction in the code object that it comes from. -/
  origin : Option Nat
  /-- Whether some operation names this position. -/
  isJumpTarget : Bool
  deriving DecidableEq, Repr

namespace Op

/-! ## 2. Control flow -/

/-- Whether control never goes on to the next operation. -/
def isForcedJump : Op → Bool
  | .jump _ | .returnValue | .reraise _ | .raiseVarargs _ => true
  | _ => false

/-- Where a branch goes. -/
def branchTarget? : Op → Option Nat
  | .jump t | .popJumpIf _ t | .jumpIfOrPop _ t | .jumpIfNotExcMatch t => some t
  | .forIter e | .delegate _ e => some e
  | _ => none

/-- Where the handler of a block that the operation opens stands. -/
def handlerTarget? : Op → Option Nat
  | .setupFinally h _ _ | .setupWith h => some h
  | _ => none

/-- Every offset that the operation names. -/
def targets (op : Op) : List Nat :=
  op.branchTarget?.toList ++ op.handlerTarget?.toList
    ++ match op with
      | .resumeDispatch states => states.map (·.2)
      | _ => []

/-- Whether control can come to the next operation by way of the caller of a generator. -/
def suspends : Op → Bool
  | .suspend _ | .delegate _ _ => true
  | _ => false

/-- Whether the operation may raise an exception. -/
def mayRaise : Op → Bool
  | .popTop | .rotTwo | .rotThree | .rotFour | .rotN _ | .dupTop | .dupTopTwo | .nop
  | .loadConst _ | .storeFast _ | .loadClosure _ | .jump _ | .setupFinally _ _ _ | .popBlock
  | .popExcept | .returnValue | .resumeDispatch _ | .suspend _ | .genStart _ | .build .tuple _
  | .build .list _ | .build .slice _ | .listToTuple => false
  | _ => true

/-! ## 3. Relabelling -/

/-- The new place of `old`, or `old` itself as the error. -/
def place (map : OffsetMap) (old : Nat) : Except Nat Nat :=
  match map.get? old with
  | some new => .ok new
  | none => .error old

/-- The operation with every offset moved by the map; the error is the first offset that the map
does not have. -/
def relabel (map : OffsetMap) : Op → Except Nat Op
  | .forIter e => (place map e).map .forIter
  | .jump t => (place map t).map .jump
  | .popJumpIf on t => (place map t).map (.popJumpIf on)
  | .jumpIfOrPop on t => (place map t).map (.jumpIfOrPop on)
  | .jumpIfNotExcMatch t => (place map t).map .jumpIfNotExcMatch
  | .setupFinally h k r => (place map h).map fun h => .setupFinally h k r
  | .setupWith h => (place map h).map .setupWith
  | .delegate s e => (place map e).map (.delegate s)
  | .resumeDispatch states =>
    (states.mapM fun p => (place map p.2).map fun t => (p.1, t)).map .resumeDispatch
  | op => .ok op

/-! ## 4. Text -/

/-- The mnemonic of an operation. -/
def mnemonic : Op → String
  | .popTop => "POP_TOP"
  | .rotTwo => "ROT_TWO"
  | .rotThree => "ROT_THREE"
  | .rotFour => "ROT_FOUR"
  | .rotN _ => "ROT_N"
  | .dupTop => "DUP_TOP"
  | .dupTopTwo => "DUP_TOP_TWO"
  | .nop => "NOP"
  | .unary .positive => "UNARY_POSITIVE"
  | .unary .negative => "UNARY_NEGATIVE"
  | .unary .not => "UNARY_NOT"
  | .unary .invert => "UNARY_INVERT"
  | .binary _ false => "BINARY_OP"
  | .binary _ true => "INPLACE_OP"
  | .binarySubscr => "BINARY_SUBSCR"
  | .storeSubscr => "STORE_SUBSCR"
  | .deleteSubscr => "DELETE_SUBSCR"
  | .compare _ => "COMPARE_OP"
  | .isOp _ => "IS_OP"
  | .containsOp _ => "CONTAINS_OP"
  | .getIter => "GET_ITER"
  | .getYieldFromIter => "GET_YIELD_FROM_ITER"
  | .forIter _ => "FOR_ITER"
  | .loadConst _ => "LOAD_CONST"
  | .loadFast _ => "LOAD_FAST"
  | .storeFast _ => "STORE_FAST"
  | .deleteFast _ => "DELETE_FAST"
  | .loadDeref _ => "LOAD_DEREF"
  | .storeDeref _ => "STORE_DEREF"
  | .deleteDeref _ => "DELETE_DEREF"
  | .loadClosure _ => "LOAD_CLOSURE"
  | .loadClassDeref _ => "LOAD_CLASSDEREF"
  | .loadGlobal _ _ => "LOAD_GLOBAL"
  | .storeGlobal _ => "STORE_GLOBAL"
  | .deleteGlobal _ => "DELETE_GLOBAL"
  | .loadName _ _ => "LOAD_NAME"
  | .storeName _ => "STORE_NAME"
  | .deleteName _ => "DELETE_NAME"
  | .loadAttr _ => "LOAD_ATTR"
  | .storeAttr _ => "STORE_ATTR"
  | .deleteAttr _ => "DELETE_ATTR"
  | .loadMethod _ => "LOAD_METHOD"
  | .loadBuildClass => "LOAD_BUILD_CLASS"
  | .loadAssertionError => "LOAD_ASSERTION_ERROR"
  | .importName _ => "IMPORT_NAME"
  | .importFrom _ => "IMPORT_FROM"
  | .importStar => "IMPORT_STAR"
  | .setupAnnotations => "SETUP_ANNOTATIONS"
  | .printExpr => "PRINT_EXPR"
  | .build .tuple _ => "BUILD_TUPLE"
  | .build .list _ => "BUILD_LIST"
  | .build .set _ => "BUILD_SET"
  | .build .map _ => "BUILD_MAP"
  | .build .constKeyMap _ => "BUILD_CONST_KEY_MAP"
  | .build .string _ => "BUILD_STRING"
  | .build .slice _ => "BUILD_SLICE"
  | .listToTuple => "LIST_TO_TUPLE"
  | .update .listAppend _ => "LIST_APPEND"
  | .update .setAdd _ => "SET_ADD"
  | .update .mapAdd _ => "MAP_ADD"
  | .update .listExtend _ => "LIST_EXTEND"
  | .update .setUpdate _ => "SET_UPDATE"
  | .update .dictMerge _ => "DICT_MERGE"
  | .update .dictUpdate _ => "DICT_UPDATE"
  | .unpackSequence _ => "UNPACK_SEQUENCE"
  | .unpackEx _ _ => "UNPACK_EX"
  | .formatValue _ => "FORMAT_VALUE"
  | .callFunction _ => "CALL_FUNCTION"
  | .callFunctionKw _ => "CALL_FUNCTION_KW"
  | .callFunctionEx _ => "CALL_FUNCTION_EX"
  | .callMethod _ => "CALL_METHOD"
  | .makeFunction _ => "MAKE_FUNCTION"
  | .jump _ => "JUMP"
  | .popJumpIf false _ => "POP_JUMP_IF_FALSE"
  | .popJumpIf true _ => "POP_JUMP_IF_TRUE"
  | .jumpIfOrPop false _ => "JUMP_IF_FALSE_OR_POP"
  | .jumpIfOrPop true _ => "JUMP_IF_TRUE_OR_POP"
  | .jumpIfNotExcMatch _ => "JUMP_IF_NOT_EXC_MATCH"
  | .returnValue => "RETURN_VALUE"
  | .setupFinally _ _ _ => "SETUP_FINALLY"
  | .setupWith _ => "SETUP_WITH"
  | .popBlock => "POP_BLOCK"
  | .popExcept => "POP_EXCEPT"
  | .reraise _ => "RERAISE"
  | .raiseVarargs _ => "RAISE_VARARGS"
  | .withExceptStart => "WITH_EXCEPT_START"
  | .yieldValue => "YIELD_VALUE"
  | .yieldFrom => "YIELD_FROM"
  | .genStart _ => "GEN_START"
  | .loadSpecial _ => "LOAD_SPECIAL"
  | .resumeDispatch _ => "RESUME_DISPATCH"
  | .suspend _ => "SUSPEND"
  | .resumePoint _ => "RESUME_POINT"
  | .delegate _ _ => "DELEGATE"

/-- A truth value as an operand. -/
def bit (b : Bool) : String := if b then "1" else "0"

/-- The text of the operands, if the operation shows any. -/
def operandText? : Op → Option String
  | .rotN n | .loadConst n | .loadFast n | .storeFast n | .deleteFast n | .loadDeref n
  | .storeDeref n | .deleteDeref n | .loadClosure n | .loadClassDeref n | .build _ n | .update _ n
  | .unpackSequence n | .formatValue n | .callFunction n | .callFunctionKw n | .callMethod n
  | .makeFunction n | .raiseVarargs n | .genStart n | .suspend n | .resumePoint n =>
    some (toString n)
  | .loadGlobal s _ | .storeGlobal s | .deleteGlobal s | .loadName s _ | .storeName s
  | .deleteName s | .loadAttr s | .storeAttr s | .deleteAttr s | .loadMethod s | .importName s
  | .importFrom s | .loadSpecial s => some s
  | .binary op _ => some op.symbol
  | .compare op => some op.symbol
  | .isOp b | .containsOp b | .callFunctionEx b | .reraise b => some (bit b)
  | .unpackEx a b => some (toString a ++ " " ++ toString b)
  | .setupFinally h k r =>
    some ("to " ++ toString h ++ " (" ++ k.text ++ ", reserve " ++ toString r ++ ")")
  | .delegate s e => some (toString s ++ " (exit " ++ toString e ++ ")")
  | op => (op.branchTarget?.or op.handlerTarget?).map fun t => "to " ++ toString t

/-- The text of an operation: its mnemonic and its operands in a second column. -/
def text (op : Op) : String :=
  match op with
  | .resumeDispatch states =>
    Text.padRight 24 op.mnemonic
      ++ String.join (states.map fun p => " " ++ toString p.1 ++ "->" ++ toString p.2)
  | _ =>
    match op.operandText? with
    | some s => Text.padRight 24 op.mnemonic ++ " " ++ s
    | none => op.mnemonic

end Op

namespace Instr

/-- The text of an instruction: the mark of a jump target, the offset and the operation. -/
def text (i : Instr) : String :=
  (if i.isJumpTarget then ">>" else "  ") ++ " " ++ Text.padLeft 4 ' ' (toString i.offset) ++ " "
    ++ i.op.text

/-- Marks the instructions that some operation names. -/
def markTargets (is : List Instr) : List Instr :=
  let targets := is.flatMap fun i => i.op.targets
  is.map fun i => { i with isJumpTarget := targets.contains i.offset }

end Instr

end Stackwise
