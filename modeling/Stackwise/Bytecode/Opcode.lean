import Stackwise.Bytecode.Dialect

/-!
# Opcodes

The instruction set of both dialects: the byte and the mnemonic of each opcode, whether its operand
means something, how a jump names its target, and which opcodes a dialect knows.

An instruction is one code unit of two bytes, the opcode and an operand byte. An operand that needs
more than one byte is continued by `EXTENDED_ARG` units in front of it.
-/

namespace Stackwise

/-- An operation of the instruction set. -/
inductive Opcode where
  | popTop | rotTwo | rotThree | dupTop | dupTopTwo | rotFour | nop | unaryPositive
  | unaryNegative | unaryNot | unaryInvert | binaryMatrixMultiply | inplaceMatrixMultiply
  | binaryPower | binaryMultiply | binaryModulo | binaryAdd | binarySubtract | binarySubscr
  | binaryFloorDivide | binaryTrueDivide | inplaceFloorDivide | inplaceTrueDivide | getLen
  | matchMapping | matchSequence | matchKeys | copyDictWithoutKeys | reraisePlain
  | withExceptStart | getAiter | getAnext | beforeAsyncWith | endAsyncFor | inplaceAdd
  | inplaceSubtract | inplaceMultiply | inplaceModulo | storeSubscr | deleteSubscr | binaryLshift
  | binaryRshift | binaryAnd | binaryXor | binaryOr | inplacePower | getIter | getYieldFromIter
  | printExpr | loadBuildClass | yieldFrom | getAwaitable | loadAssertionError | inplaceLshift
  | inplaceRshift | inplaceAnd | inplaceXor | inplaceOr | listToTuple | returnValue | importStar
  | setupAnnotations | yieldValue | popBlock | popExcept | storeName | deleteName
  | unpackSequence | forIter | unpackEx | storeAttr | deleteAttr | storeGlobal | deleteGlobal
  | rotN | loadConst | loadName | buildTuple | buildList | buildSet | buildMap | loadAttr
  | compareOp | importName | importFrom | jumpForward | jumpIfFalseOrPop | jumpIfTrueOrPop
  | jumpAbsolute | popJumpIfFalse | popJumpIfTrue | loadGlobal | isOp | containsOp | reraise
  | jumpIfNotExcMatch | setupFinally | loadFast | storeFast | deleteFast | genStart
  | raiseVarargs | callFunction | makeFunction | buildSlice | loadClosure | loadDeref
  | storeDeref | deleteDeref | callFunctionKw | callFunctionEx | setupWith | extendedArg
  | listAppend | setAdd | mapAdd | loadClassDeref | matchClass | setupAsyncWith | formatValue
  | buildConstKeyMap | buildString | loadMethod | callMethod | listExtend | setUpdate | dictMerge
  | dictUpdate
  deriving DecidableEq, Hashable, Inhabited, Repr

/-- How a jump operand names its target. -/
inductive JumpKind where
  /-- Distance from the following instruction. -/
  | relative
  /-- Distance from the start. -/
  | absolute
  deriving DecidableEq, Repr

/-- The text of a jump kind. -/
def JumpKind.text : JumpKind → String
  | .relative => "Relative"
  | .absolute => "Absolute"

namespace Opcode

/-! ## 1. Bytes and mnemonics -/

/-- The byte of an opcode. -/
def byte : Opcode → UInt8
  | .popTop => 1
  | .rotTwo => 2
  | .rotThree => 3
  | .dupTop => 4
  | .dupTopTwo => 5
  | .rotFour => 6
  | .nop => 9
  | .unaryPositive => 10
  | .unaryNegative => 11
  | .unaryNot => 12
  | .unaryInvert => 15
  | .binaryMatrixMultiply => 16
  | .inplaceMatrixMultiply => 17
  | .binaryPower => 19
  | .binaryMultiply => 20
  | .binaryModulo => 22
  | .binaryAdd => 23
  | .binarySubtract => 24
  | .binarySubscr => 25
  | .binaryFloorDivide => 26
  | .binaryTrueDivide => 27
  | .inplaceFloorDivide => 28
  | .inplaceTrueDivide => 29
  | .getLen => 30
  | .matchMapping => 31
  | .matchSequence => 32
  | .matchKeys => 33
  | .copyDictWithoutKeys => 34
  | .reraisePlain => 48
  | .withExceptStart => 49
  | .getAiter => 50
  | .getAnext => 51
  | .beforeAsyncWith => 52
  | .endAsyncFor => 54
  | .inplaceAdd => 55
  | .inplaceSubtract => 56
  | .inplaceMultiply => 57
  | .inplaceModulo => 59
  | .storeSubscr => 60
  | .deleteSubscr => 61
  | .binaryLshift => 62
  | .binaryRshift => 63
  | .binaryAnd => 64
  | .binaryXor => 65
  | .binaryOr => 66
  | .inplacePower => 67
  | .getIter => 68
  | .getYieldFromIter => 69
  | .printExpr => 70
  | .loadBuildClass => 71
  | .yieldFrom => 72
  | .getAwaitable => 73
  | .loadAssertionError => 74
  | .inplaceLshift => 75
  | .inplaceRshift => 76
  | .inplaceAnd => 77
  | .inplaceXor => 78
  | .inplaceOr => 79
  | .listToTuple => 82
  | .returnValue => 83
  | .importStar => 84
  | .setupAnnotations => 85
  | .yieldValue => 86
  | .popBlock => 87
  | .popExcept => 89
  | .storeName => 90
  | .deleteName => 91
  | .unpackSequence => 92
  | .forIter => 93
  | .unpackEx => 94
  | .storeAttr => 95
  | .deleteAttr => 96
  | .storeGlobal => 97
  | .deleteGlobal => 98
  | .rotN => 99
  | .loadConst => 100
  | .loadName => 101
  | .buildTuple => 102
  | .buildList => 103
  | .buildSet => 104
  | .buildMap => 105
  | .loadAttr => 106
  | .compareOp => 107
  | .importName => 108
  | .importFrom => 109
  | .jumpForward => 110
  | .jumpIfFalseOrPop => 111
  | .jumpIfTrueOrPop => 112
  | .jumpAbsolute => 113
  | .popJumpIfFalse => 114
  | .popJumpIfTrue => 115
  | .loadGlobal => 116
  | .isOp => 117
  | .containsOp => 118
  | .reraise => 119
  | .jumpIfNotExcMatch => 121
  | .setupFinally => 122
  | .loadFast => 124
  | .storeFast => 125
  | .deleteFast => 126
  | .genStart => 129
  | .raiseVarargs => 130
  | .callFunction => 131
  | .makeFunction => 132
  | .buildSlice => 133
  | .loadClosure => 135
  | .loadDeref => 136
  | .storeDeref => 137
  | .deleteDeref => 138
  | .callFunctionKw => 141
  | .callFunctionEx => 142
  | .setupWith => 143
  | .extendedArg => 144
  | .listAppend => 145
  | .setAdd => 146
  | .mapAdd => 147
  | .loadClassDeref => 148
  | .matchClass => 152
  | .setupAsyncWith => 154
  | .formatValue => 155
  | .buildConstKeyMap => 156
  | .buildString => 157
  | .loadMethod => 160
  | .callMethod => 161
  | .listExtend => 162
  | .setUpdate => 163
  | .dictMerge => 164
  | .dictUpdate => 165

/-- The mnemonic of an opcode. -/
def mnemonic : Opcode → String
  | .popTop => "POP_TOP"
  | .rotTwo => "ROT_TWO"
  | .rotThree => "ROT_THREE"
  | .dupTop => "DUP_TOP"
  | .dupTopTwo => "DUP_TOP_TWO"
  | .rotFour => "ROT_FOUR"
  | .nop => "NOP"
  | .unaryPositive => "UNARY_POSITIVE"
  | .unaryNegative => "UNARY_NEGATIVE"
  | .unaryNot => "UNARY_NOT"
  | .unaryInvert => "UNARY_INVERT"
  | .binaryMatrixMultiply => "BINARY_MATRIX_MULTIPLY"
  | .inplaceMatrixMultiply => "INPLACE_MATRIX_MULTIPLY"
  | .binaryPower => "BINARY_POWER"
  | .binaryMultiply => "BINARY_MULTIPLY"
  | .binaryModulo => "BINARY_MODULO"
  | .binaryAdd => "BINARY_ADD"
  | .binarySubtract => "BINARY_SUBTRACT"
  | .binarySubscr => "BINARY_SUBSCR"
  | .binaryFloorDivide => "BINARY_FLOOR_DIVIDE"
  | .binaryTrueDivide => "BINARY_TRUE_DIVIDE"
  | .inplaceFloorDivide => "INPLACE_FLOOR_DIVIDE"
  | .inplaceTrueDivide => "INPLACE_TRUE_DIVIDE"
  | .getLen => "GET_LEN"
  | .matchMapping => "MATCH_MAPPING"
  | .matchSequence => "MATCH_SEQUENCE"
  | .matchKeys => "MATCH_KEYS"
  | .copyDictWithoutKeys => "COPY_DICT_WITHOUT_KEYS"
  | .reraisePlain => "RERAISE"
  | .withExceptStart => "WITH_EXCEPT_START"
  | .getAiter => "GET_AITER"
  | .getAnext => "GET_ANEXT"
  | .beforeAsyncWith => "BEFORE_ASYNC_WITH"
  | .endAsyncFor => "END_ASYNC_FOR"
  | .inplaceAdd => "INPLACE_ADD"
  | .inplaceSubtract => "INPLACE_SUBTRACT"
  | .inplaceMultiply => "INPLACE_MULTIPLY"
  | .inplaceModulo => "INPLACE_MODULO"
  | .storeSubscr => "STORE_SUBSCR"
  | .deleteSubscr => "DELETE_SUBSCR"
  | .binaryLshift => "BINARY_LSHIFT"
  | .binaryRshift => "BINARY_RSHIFT"
  | .binaryAnd => "BINARY_AND"
  | .binaryXor => "BINARY_XOR"
  | .binaryOr => "BINARY_OR"
  | .inplacePower => "INPLACE_POWER"
  | .getIter => "GET_ITER"
  | .getYieldFromIter => "GET_YIELD_FROM_ITER"
  | .printExpr => "PRINT_EXPR"
  | .loadBuildClass => "LOAD_BUILD_CLASS"
  | .yieldFrom => "YIELD_FROM"
  | .getAwaitable => "GET_AWAITABLE"
  | .loadAssertionError => "LOAD_ASSERTION_ERROR"
  | .inplaceLshift => "INPLACE_LSHIFT"
  | .inplaceRshift => "INPLACE_RSHIFT"
  | .inplaceAnd => "INPLACE_AND"
  | .inplaceXor => "INPLACE_XOR"
  | .inplaceOr => "INPLACE_OR"
  | .listToTuple => "LIST_TO_TUPLE"
  | .returnValue => "RETURN_VALUE"
  | .importStar => "IMPORT_STAR"
  | .setupAnnotations => "SETUP_ANNOTATIONS"
  | .yieldValue => "YIELD_VALUE"
  | .popBlock => "POP_BLOCK"
  | .popExcept => "POP_EXCEPT"
  | .storeName => "STORE_NAME"
  | .deleteName => "DELETE_NAME"
  | .unpackSequence => "UNPACK_SEQUENCE"
  | .forIter => "FOR_ITER"
  | .unpackEx => "UNPACK_EX"
  | .storeAttr => "STORE_ATTR"
  | .deleteAttr => "DELETE_ATTR"
  | .storeGlobal => "STORE_GLOBAL"
  | .deleteGlobal => "DELETE_GLOBAL"
  | .rotN => "ROT_N"
  | .loadConst => "LOAD_CONST"
  | .loadName => "LOAD_NAME"
  | .buildTuple => "BUILD_TUPLE"
  | .buildList => "BUILD_LIST"
  | .buildSet => "BUILD_SET"
  | .buildMap => "BUILD_MAP"
  | .loadAttr => "LOAD_ATTR"
  | .compareOp => "COMPARE_OP"
  | .importName => "IMPORT_NAME"
  | .importFrom => "IMPORT_FROM"
  | .jumpForward => "JUMP_FORWARD"
  | .jumpIfFalseOrPop => "JUMP_IF_FALSE_OR_POP"
  | .jumpIfTrueOrPop => "JUMP_IF_TRUE_OR_POP"
  | .jumpAbsolute => "JUMP_ABSOLUTE"
  | .popJumpIfFalse => "POP_JUMP_IF_FALSE"
  | .popJumpIfTrue => "POP_JUMP_IF_TRUE"
  | .loadGlobal => "LOAD_GLOBAL"
  | .isOp => "IS_OP"
  | .containsOp => "CONTAINS_OP"
  | .reraise => "RERAISE"
  | .jumpIfNotExcMatch => "JUMP_IF_NOT_EXC_MATCH"
  | .setupFinally => "SETUP_FINALLY"
  | .loadFast => "LOAD_FAST"
  | .storeFast => "STORE_FAST"
  | .deleteFast => "DELETE_FAST"
  | .genStart => "GEN_START"
  | .raiseVarargs => "RAISE_VARARGS"
  | .callFunction => "CALL_FUNCTION"
  | .makeFunction => "MAKE_FUNCTION"
  | .buildSlice => "BUILD_SLICE"
  | .loadClosure => "LOAD_CLOSURE"
  | .loadDeref => "LOAD_DEREF"
  | .storeDeref => "STORE_DEREF"
  | .deleteDeref => "DELETE_DEREF"
  | .callFunctionKw => "CALL_FUNCTION_KW"
  | .callFunctionEx => "CALL_FUNCTION_EX"
  | .setupWith => "SETUP_WITH"
  | .extendedArg => "EXTENDED_ARG"
  | .listAppend => "LIST_APPEND"
  | .setAdd => "SET_ADD"
  | .mapAdd => "MAP_ADD"
  | .loadClassDeref => "LOAD_CLASSDEREF"
  | .matchClass => "MATCH_CLASS"
  | .setupAsyncWith => "SETUP_ASYNC_WITH"
  | .formatValue => "FORMAT_VALUE"
  | .buildConstKeyMap => "BUILD_CONST_KEY_MAP"
  | .buildString => "BUILD_STRING"
  | .loadMethod => "LOAD_METHOD"
  | .callMethod => "CALL_METHOD"
  | .listExtend => "LIST_EXTEND"
  | .setUpdate => "SET_UPDATE"
  | .dictMerge => "DICT_MERGE"
  | .dictUpdate => "DICT_UPDATE"

/-- Every opcode, by byte. The reraising operation has a byte of its own in each dialect. -/
def all : List Opcode := [
  .popTop, .rotTwo, .rotThree, .dupTop, .dupTopTwo, .rotFour, .nop, .unaryPositive,
  .unaryNegative, .unaryNot, .unaryInvert, .binaryMatrixMultiply, .inplaceMatrixMultiply,
  .binaryPower, .binaryMultiply, .binaryModulo, .binaryAdd, .binarySubtract, .binarySubscr,
  .binaryFloorDivide, .binaryTrueDivide, .inplaceFloorDivide, .inplaceTrueDivide, .getLen,
  .matchMapping, .matchSequence, .matchKeys, .copyDictWithoutKeys, .reraisePlain,
  .withExceptStart, .getAiter, .getAnext, .beforeAsyncWith, .endAsyncFor, .inplaceAdd,
  .inplaceSubtract, .inplaceMultiply, .inplaceModulo, .storeSubscr, .deleteSubscr, .binaryLshift,
  .binaryRshift, .binaryAnd, .binaryXor, .binaryOr, .inplacePower, .getIter, .getYieldFromIter,
  .printExpr, .loadBuildClass, .yieldFrom, .getAwaitable, .loadAssertionError, .inplaceLshift,
  .inplaceRshift, .inplaceAnd, .inplaceXor, .inplaceOr, .listToTuple, .returnValue, .importStar,
  .setupAnnotations, .yieldValue, .popBlock, .popExcept, .storeName, .deleteName,
  .unpackSequence, .forIter, .unpackEx, .storeAttr, .deleteAttr, .storeGlobal, .deleteGlobal,
  .rotN, .loadConst, .loadName, .buildTuple, .buildList, .buildSet, .buildMap, .loadAttr,
  .compareOp, .importName, .importFrom, .jumpForward, .jumpIfFalseOrPop, .jumpIfTrueOrPop,
  .jumpAbsolute, .popJumpIfFalse, .popJumpIfTrue, .loadGlobal, .isOp, .containsOp, .reraise,
  .jumpIfNotExcMatch, .setupFinally, .loadFast, .storeFast, .deleteFast, .genStart,
  .raiseVarargs, .callFunction, .makeFunction, .buildSlice, .loadClosure, .loadDeref,
  .storeDeref, .deleteDeref, .callFunctionKw, .callFunctionEx, .setupWith, .extendedArg,
  .listAppend, .setAdd, .mapAdd, .loadClassDeref, .matchClass, .setupAsyncWith, .formatValue,
  .buildConstKeyMap, .buildString, .loadMethod, .callMethod, .listExtend, .setUpdate, .dictMerge,
  .dictUpdate]

/-! ## 2. Dialects -/

/-- Whether a dialect knows the opcode. -/
def existsIn (op : Opcode) (d : Dialect) : Bool :=
  match op with
  | .getLen | .matchMapping | .matchSequence | .matchKeys | .copyDictWithoutKeys | .rotN
  | .reraise | .genStart | .matchClass => d == .v310
  | .reraisePlain => d == .v39
  | _ => true

/-- The opcode with the given byte, if the dialect has one. -/
def ofByte? (b : UInt8) (d : Dialect) : Option Opcode :=
  (all.find? (·.byte == b)).filter (·.existsIn d)

/-- The opcode with the given mnemonic: the first that the dialect knows, else the first. -/
def ofMnemonic? (name : String) (d : Dialect) : Option Opcode :=
  let named := all.filter (·.mnemonic == name)
  (named.find? (·.existsIn d)).or named.head?

/-! ## 3. Operands -/

/-- Whether the operand byte means something: exactly from byte 90 on. -/
def hasArg (op : Opcode) : Bool := 90 ≤ op.byte

/-- How the operand names a jump target, for the opcodes that have one. -/
def jumpKind? : Opcode → Option JumpKind
  | .forIter | .jumpForward | .setupFinally | .setupWith | .setupAsyncWith => some .relative
  | .jumpIfFalseOrPop | .jumpIfTrueOrPop | .jumpAbsolute | .popJumpIfFalse | .popJumpIfTrue
  | .jumpIfNotExcMatch => some .absolute
  | _ => none

/-- Whether the opcode can be compiled. Coroutines and structural matching cannot, and the
operand extension belongs to the encoding. -/
def isSupported : Opcode → Bool
  | .getAiter | .getAnext | .beforeAsyncWith | .endAsyncFor | .getAwaitable | .setupAsyncWith
  | .getLen | .matchMapping | .matchSequence | .matchKeys | .matchClass | .copyDictWithoutKeys
  | .extendedArg => false
  | _ => true

end Opcode

end Stackwise
