import Stackwise.Compile.Emitter

/-!
# Programs

The form of a function that the machine runs: each instruction with its lowering, by offset, so that
a jump finds it at once. Offsets that no execution reaches are empty.
-/

namespace Stackwise

/-- One instruction as the machine runs it. -/
structure Step where
  /-- The operation. -/
  op : Op
  /-- How it is carried out. -/
  lowering : Lowering
  /-- The source line. -/
  line : Option Nat
  deriving Repr

/-- A function that can be run. -/
structure Program where
  /-- The number of the function. -/
  id : FunctionId
  /-- The code object. -/
  code : CodeObject
  /-- The types that it was compiled for. -/
  signature : CallSignature
  /-- The instructions by offset. -/
  steps : Array (Option Step)
  /-- The exception regions. -/
  regions : List Region
  /-- The suspensions of a generator. -/
  generator : Option GeneratorLayout
  deriving Inhabited

namespace Program

/-- The instruction at an offset. -/
def step? (p : Program) (offset : Nat) : Option Step := (p.steps[offset]?).join

/-- The name of the function. -/
def name (p : Program) : String := p.code.qualname

/-- Whether a call makes a generator. -/
def isGenerator (p : Program) : Bool := p.generator.isSome

/-- The program of a header without instructions. -/
def ofHeader (h : UnitHeader) : Program where
  id := h.id
  code := h.code
  signature := h.signature
  steps := Array.replicate h.size none
  regions := h.regions
  generator := h.generator

/-- Puts an instruction at its offset, once. -/
def place (p : Program) (site : EmitSite) : Except EmitError Program :=
  let offset := site.instr.offset
  match p.steps[offset]? with
  | none => .error (.pastEnd offset)
  | some (some _) => .error (.emittedTwice offset)
  | some none =>
    let step : Step := { op := site.instr.op, lowering := site.lowering, line := site.instr.line }
    .ok { p with steps := p.steps.setIfInBounds offset (some step) }

/-- Makes programs; the state is the unit under way. -/
def emitter : Emitter (Option Program) Program where
  start h _ :=
    if h.regions.any fun r => h.size ≤ r.handler then .error .handlerOutside
    else .ok (some (ofHeader h))
  emit site
    | none => .error .outsideUnit
    | some p => (p.place site).map some
  finish
    | none => .error .notStarted
    | some p => .ok (p, none)

end Program

end Stackwise
