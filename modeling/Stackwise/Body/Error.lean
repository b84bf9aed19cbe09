import Stackwise.Bytecode.Error

/-!
# Faults of a function body

Why a code object has no body that can be analysed. The texts name the offset of the operation; a
fault of the bytes keeps its own text.
-/

namespace Stackwise

/-- The table that an operand points into. -/
inductive OperandTable where
  | names | varnames | cells | constants
  deriving DecidableEq, Repr

/-- The name of a table. -/
def OperandTable.text : OperandTable → String
  | .names => "names"
  | .varnames => "varnames"
  | .cells => "cells"
  | .constants => "constants"

/-- Why a function cannot be analysed. -/
inductive BodyError where
  /-- The bytes are no instruction stream. -/
  | bytecode (e : BytecodeError)
  /-- An operand points outside its table. -/
  | operandOutOfRange (offset : Nat) (opcode : Opcode) (index : Nat) (table : OperandTable)
  /-- An operand without meaning. -/
  | invalidOperand (offset : Nat) (opcode : Opcode) (arg : Nat)
  /-- An operation takes more values than there are. -/
  | stackUnderflow (offset : Nat)
  /-- Paths meet with stacks of different depths. -/
  | depthMismatch (offset expected found : Nat)
  /-- Paths meet with different numbers of locals. -/
  | localsMismatch (offset : Nat)
  /-- Paths meet inside different blocks. -/
  | blockMismatch (offset : Nat)
  /-- A block is closed where none is open. -/
  | noBlockToPop (offset : Nat)
  /-- A handler is left outside any handler. -/
  | notInHandler (offset : Nat)
  /-- An operation names an offset outside the body. -/
  | invalidJumpTarget (offset target : Nat)
  /-- Control goes on past the last operation. -/
  | fallsOffEnd (offset : Nat)
  /-- The analysis was stopped by its step bound. -/
  | noFixedPoint (steps : Nat)
  /-- A kind of code object that cannot be compiled. -/
  | unsupportedCode (kind : String)
  deriving DecidableEq, Repr

/-- The text of a fault. -/
def BodyError.message : BodyError → String
  | .bytecode e => e.message
  | .operandOutOfRange o op i t =>
    op.mnemonic ++ " at offset " ++ toString o ++ ": index " ++ toString i ++ " is out of range of "
      ++ t.text
  | .invalidOperand o op a =>
    op.mnemonic ++ " at offset " ++ toString o ++ ": invalid argument " ++ toString a
  | .stackUnderflow o => "stack underflow at offset " ++ toString o
  | .depthMismatch o e f =>
    "stack depth mismatch at offset " ++ toString o ++ ": " ++ toString e ++ " vs " ++ toString f
  | .localsMismatch o => "local variable count mismatch at offset " ++ toString o
  | .blockMismatch o => "handler block stacks disagree at offset " ++ toString o
  | .noBlockToPop o => "POP_BLOCK at offset " ++ toString o ++ " has no block to pop"
  | .notInHandler o =>
    "POP_EXCEPT at offset " ++ toString o ++ " is not inside an exception handler"
  | .invalidJumpTarget o t =>
    "jump at offset " ++ toString o ++ " targets " ++ toString t ++ ", which is not an instruction"
  | .fallsOffEnd o =>
    "execution falls off the end of the code after offset " ++ toString o
  | .noFixedPoint n => "dataflow did not reach a fixed point within " ++ toString n ++ " steps"
  | .unsupportedCode k => k ++ " code objects are not supported"

end Stackwise
