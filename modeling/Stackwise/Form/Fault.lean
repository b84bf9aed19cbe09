import Stackwise.Compile.Error
import Stackwise.Form.Basic
import Stackwise.Types.Model

/-!
# Faults as forms

A fault is shown by the name of its cause and its text.
-/

namespace Stackwise

/-- The form of a fault. -/
def Form.fault (kind message : String) : Form :=
  .fields [("error", .text kind), ("message", .text message)]

/-- The name of a fault of bytecode. -/
def BytecodeError.kind : BytecodeError → String
  | .empty => "Empty"
  | .truncated _ => "Truncated"
  | .unknownOpcode _ _ _ => "UnknownOpcode"
  | .unsupportedOpcode _ _ => "UnsupportedOpcode"
  | .danglingExtension _ => "DanglingExtendedArg"
  | .invalidJumpTarget _ _ => "InvalidJumpTarget"
  | .unboundLabel _ => "UnboundLabel"

/-- The form of a fault of bytecode. -/
def BytecodeError.form (e : BytecodeError) : Form := .fault e.kind e.message

/-- The form of a form that cannot be read. -/
def ReadError.form : ReadError → Form
  | .malformed what => .fault "BadInput" (ReadError.malformed what).message
  | .bytecode e => e.form
  | .dialect s => .fault "Version" (ReadError.dialect s).message

/-- The form of a failed extension of a type model. -/
def TypeModelError.form (e : TypeModelError) : Form :=
  let kind := match e with
    | .duplicateType _ => "DuplicateType"
    | .unknownType _ => "UnknownType"
    | .inconsistentOrder _ => "InconsistentMro"
  .fault kind e.message

/-- The name of a fault of a body. -/
def BodyError.kind : BodyError → String
  | .bytecode e => e.kind
  | .operandOutOfRange _ _ _ _ => "OperandOutOfRange"
  | .invalidOperand _ _ _ => "InvalidOperand"
  | .stackUnderflow _ => "StackUnderflow"
  | .depthMismatch _ _ _ => "DepthMismatch"
  | .localsMismatch _ => "LocalsMismatch"
  | .blockMismatch _ => "BlockMismatch"
  | .noBlockToPop _ => "NoBlockToPop"
  | .notInHandler _ => "NotInExceptHandler"
  | .invalidJumpTarget _ _ => "InvalidJumpTarget"
  | .fallsOffEnd _ => "FallsOffEnd"
  | .noFixedPoint _ => "NoFixedPoint"
  | .unsupportedCode _ => "UnsupportedCode"

/-- The form of a fault of a body. -/
def BodyError.form (e : BodyError) : Form := .fault e.kind e.message

/-- The form of an emitter's refusal. -/
def EmitError.form (e : EmitError) : Form := .fault "Rejected" e.message

/-- The name of a failed compilation. -/
def CompileError.kind : CompileError → String
  | .body _ e => e.kind
  | .emission _ _ _ => "EmissionFailure"

/-- The form of a failed compilation. -/
def CompileError.form (e : CompileError) : Form :=
  let base := Form.fault e.kind e.message
  match e with
  | .body _ _ => base
  | .emission f cause listing =>
    ((base.addField "function" (.text f)).addField "reason" (.text cause.message)).addField
      "listing" (.text listing)

end Stackwise
