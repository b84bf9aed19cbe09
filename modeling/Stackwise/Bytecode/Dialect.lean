import Stackwise.Text.Blank

/-!
# Bytecode dialects

Two dialects of the same instruction set. They differ in a few opcodes and in the unit of a jump
operand: bytes in the older one, code units of two bytes in the newer one. Operands are 32-bit, so
a conversion that leaves that range gives no result.
-/

namespace Stackwise

/-- One more than the largest 32-bit operand. -/
def wordLimit : Nat := 0x100000000

/-- The dialect that a code object was written in. -/
inductive Dialect where
  /-- Jump operands count bytes. -/
  | v39
  /-- Jump operands count code units. -/
  | v310
  deriving DecidableEq, Hashable, Repr

/-- Code objects are written in the newer dialect unless they say otherwise. -/
instance : Inhabited Dialect := ⟨.v310⟩

namespace Dialect

/-- Number of bytes that one unit of a jump operand stands for. -/
def jumpUnitBytes : Dialect → Nat
  | .v39 => 1
  | .v310 => 2

/-- The code units that a jump operand stands for, if its bytes can be counted in 32 bits. -/
def jumpArgToUnits? (d : Dialect) (arg : Nat) : Option Nat :=
  let bytes := arg * d.jumpUnitBytes
  if bytes < wordLimit then some (bytes / 2) else none

/-- The jump operand for a distance in code units, if its bytes can be counted in 32 bits. -/
def unitsToJumpArg? (d : Dialect) (units : Nat) : Option Nat :=
  let bytes := units * 2
  if bytes < wordLimit then some (bytes / d.jumpUnitBytes) else none

/-- Major and minor version number. -/
def version : Dialect → Nat × Nat
  | .v39 => (3, 9)
  | .v310 => (3, 10)

/-- The text of a dialect. -/
def text : Dialect → String
  | .v39 => "3.9"
  | .v310 => "3.10"

/-- Reads a dialect, with blanks around it ignored; the error is the text without those blanks. -/
def parse (s : String) : Except String Dialect :=
  match Text.trim s with
  | "3.9" => .ok .v39
  | "3.10" => .ok .v310
  | other => .error other

/-- The text of a dialect that cannot be read. -/
def unsupportedMessage (s : String) : String := "unsupported python version `" ++ s ++ "`"

end Dialect

end Stackwise
