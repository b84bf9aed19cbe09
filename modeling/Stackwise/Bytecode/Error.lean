import Stackwise.Bytecode.Opcode

/-!
# Faults of bytecode

Why bytes are no instruction stream, or why instructions cannot be laid out.
-/

namespace Stackwise

/-- Why bytes cannot be decoded or instructions cannot be assembled. -/
inductive BytecodeError where
  /-- There are no instructions. -/
  | empty
  /-- The bytes end inside a code unit. -/
  | truncated (length : Nat)
  /-- The dialect has no opcode with this byte. -/
  | unknownOpcode (byte : UInt8) (offset : Nat) (dialect : Dialect)
  /-- The opcode cannot be compiled. -/
  | unsupportedOpcode (opcode : Opcode) (offset : Nat)
  /-- An operand extension without an instruction. -/
  | danglingExtension (offset : Nat)
  /-- A jump into the middle of an instruction or outside the code. -/
  | invalidJumpTarget (offset target : Nat)
  /-- A jump to a label that stands nowhere. -/
  | unboundLabel (label : Nat)
  deriving DecidableEq, Repr

/-- The text of a fault. -/
def BytecodeError.message : BytecodeError → String
  | .empty => "code object has no instructions"
  | .truncated n =>
    "instruction stream has odd length " ++ toString n ++ " (truncated code unit)"
  | .unknownOpcode b o d =>
    "unknown opcode " ++ toString b.toNat ++ " at offset " ++ toString o ++ " for python " ++ d.text
  | .unsupportedOpcode op o =>
    "unsupported opcode " ++ op.mnemonic ++ " at offset " ++ toString o
  | .danglingExtension o =>
    "EXTENDED_ARG at offset " ++ toString o ++ " is not followed by an instruction"
  | .invalidJumpTarget o t =>
    "jump at offset " ++ toString o ++ " targets " ++ toString t ++ ", which is not an instruction"
  | .unboundLabel l => "label " ++ toString l ++ " was never bound"

end Stackwise
