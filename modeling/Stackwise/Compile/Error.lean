import Stackwise.Body.Error

/-!
# Faults of compilation

A function is refused either because its body cannot be analysed or because an emitter does not
take it.
-/

namespace Stackwise

/-- Why an emitter does not take a unit. -/
inductive EmitError where
  /-- A region names a handler outside the unit. -/
  | handlerOutside
  /-- An instruction comes before the unit was started. -/
  | outsideUnit
  /-- An instruction lies past the end of the unit. -/
  | pastEnd (offset : Nat)
  /-- An instruction comes a second time. -/
  | emittedTwice (offset : Nat)
  /-- The unit was finished before it was started. -/
  | notStarted
  /-- An emitter's own reason. -/
  | refused (reason : String)
  deriving DecidableEq, Repr

/-- The text of an emitter's refusal. -/
def EmitError.message : EmitError → String
  | .handlerOutside => "exception handler outside the function body"
  | .outsideUnit => "instruction emitted outside a unit"
  | .pastEnd o => "offset " ++ toString o ++ " past the end of the unit"
  | .emittedTwice o => "offset " ++ toString o ++ " emitted twice"
  | .notStarted => "finish without begin"
  | .refused reason => reason

/-- Why a function is not compiled. -/
inductive CompileError where
  /-- The body cannot be analysed. -/
  | body (function : String) (cause : BodyError)
  /-- The emitter refused; the listing shows the instructions of the function. -/
  | emission (function : String) (cause : EmitError) (listing : String)
  deriving DecidableEq, Repr

/-- The text of a refusal. -/
def CompileError.message : CompileError → String
  | .body f e => "cannot translate `" ++ f ++ "`: " ++ e.message
  | .emission f e _ => "emission failed for `" ++ f ++ "`: " ++ e.message

end Stackwise
