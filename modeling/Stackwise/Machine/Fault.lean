import Stackwise.Body.Op
import Stackwise.Compile.Error
import Stackwise.Machine.Value

/-!
# Faults

Every way in which an operation of the machine can end without a result.

* `raised`: an exception, which handlers of the program can catch.
* `stopIteration`: a generator has nothing more to yield; it carries the return value if the
  generator has just finished.
* `alreadyRunning`: a generator was resumed from inside itself.
* `compile`, `broken`: the function cannot be compiled, or its program broke a rule of the machine.
  No handler catches these, and an access outside the stack ends the whole run.
* `outOfFuel`: the bound on the length of a run was reached. No answer has this outcome.
-/

namespace Stackwise

/-- A raised exception: its number in the store, and its class. -/
structure Raised where
  /-- Number in the store. -/
  ref : Nat
  /-- The class. -/
  type : TypeId
  deriving DecidableEq, Inhabited, Repr

/-- The exception as a value. -/
def Raised.value (e : Raised) : Value := .exception e.ref e.type

/-- A rule of the machine that a program broke. -/
inductive Broken where
  | noInstruction
  | stackUnderflow
  /-- The place of an update lies outside the stack. -/
  | outsideStack
  | localOutOfRange (slot : Nat)
  | cellOutOfRange (slot : Nat)
  | constantOutOfRange (index : Nat)
  /-- The stack is too short for a handler. -/
  | handlerLevel (held expected : Nat)
  | closureSize (expected got : Nat)
  | fewLocals
  | plainYield
  | notGenerator
  | unknownState (state : Nat)
  | suspendedStack (held state expected : Nat)
  | noResumePoint (state : Nat)
  | noResumption
  | survived (mnemonic : String)
  | keysNotTuple
  /-- The target of an update is not the collection that it needs. -/
  | updateTarget (kind : Update)
  | specNotText
  | keywordsNotTuple
  | moreKeywords
  | keywordNotText
  | functionParts
  | closureNotTuple
  | closureNotCell
  | annotationsKind
  | kwdefaultsNotDict
  | defaultsNotTuple
  /-- What a host reports. -/
  | host (message : String)
  deriving DecidableEq, Repr

/-- The text of a broken rule. -/
def Broken.message : Broken → String
  | .noInstruction => "no instruction at offset"
  | .stackUnderflow => "operand stack underflow"
  | .outsideStack => "index out of bounds"
  | .localOutOfRange slot => "local slot " ++ toString slot ++ " out of range"
  | .cellOutOfRange slot => "cell " ++ toString slot ++ " out of range"
  | .constantOutOfRange i => "constant " ++ toString i ++ " out of range"
  | .handlerLevel held expected =>
    "operand stack holds " ++ toString held ++ " values, handler expects " ++ toString expected
  | .closureSize expected got =>
    "expected " ++ toString expected ++ " closure cells, got " ++ toString got
  | .fewLocals => "fewer locals than parameters"
  | .plainYield => "a plain function yielded"
  | .notGenerator => "suspended a frame that is not a generator"
  | .unknownState state => "unknown resume state " ++ toString state
  | .suspendedStack held state expected =>
    "operand stack holds " ++ toString held ++ " values at state " ++ toString state
      ++ ", layout expects " ++ toString expected
  | .noResumePoint state => "no resume point for state " ++ toString state
  | .noResumption => "resume point reached without a resumption"
  | .survived mnemonic => mnemonic ++ " survived the generator transform"
  | .keysNotTuple => "BUILD_CONST_KEY_MAP keys are not a tuple"
  | .updateTarget .listAppend => "LIST_APPEND target is not a list"
  | .updateTarget .setAdd => "SET_ADD target is not a set"
  | .updateTarget .mapAdd => "MAP_ADD target is not a dict"
  | .updateTarget .listExtend => "LIST_EXTEND target is not a list"
  | .updateTarget .setUpdate => "SET_UPDATE target is not a set"
  | .updateTarget _ => "dict update target is not a dict"
  | .specNotText => "format spec is not a string"
  | .keywordsNotTuple => "keyword names are not a tuple"
  | .moreKeywords => "more keyword names than arguments"
  | .keywordNotText => "keyword name is not a string"
  | .functionParts => "MAKE_FUNCTION expects a code object and a name"
  | .closureNotTuple => "closure is not a tuple"
  | .closureNotCell => "closure entry is not a cell"
  | .annotationsKind => "annotations are neither a tuple nor a dict"
  | .kwdefaultsNotDict => "keyword defaults are not a dict"
  | .defaultsNotTuple => "defaults are not a tuple"
  | .host message => message

/-- Why an operation has no result. -/
inductive Fault where
  | raised (e : Raised)
  | stopIteration (value : Option Value)
  | alreadyRunning
  | compile (cause : CompileError)
  /-- The program of a function broke a rule at an offset. -/
  | broken (function : String) (offset : Nat) (cause : Broken)
  | outOfFuel

instance : Inhabited Fault := ⟨.outOfFuel⟩

namespace Fault

/-- The exception that was raised. -/
def raised? : Fault → Option Raised
  | .raised e => some e
  | _ => none

/-- Whether handlers of a program can catch it. -/
def isCatchable : Fault → Bool
  | .raised _ | .stopIteration _ | .alreadyRunning => true
  | .compile _ | .broken _ _ _ | .outOfFuel => false

/-- Whether it ends the whole run, so that nothing of it can be asked any more. -/
def isCrash : Fault → Bool
  | .broken _ _ .outsideStack => true
  | _ => false

end Fault

end Stackwise
