import Stackwise.Analysis.Lowering
import Stackwise.Bytecode.Listing
import Stackwise.Compile.CompiledBody

/-!
# Emitters

An emitter takes a compiled body apart: first a header, then every instruction that some execution
reaches, in order and with its final state and lowering, and last the end of the unit. An emitter
may refuse at each of these points, which ends the emission.

Two emitters stand here: one writes a listing, one keeps what it was given.
-/

namespace Stackwise

/-! ## 1. The interface -/

/-- What is known of a unit before its first instruction. -/
structure UnitHeader where
  /-- The number of the function. -/
  id : FunctionId
  /-- The code object. -/
  code : CodeObject
  /-- The types that it was compiled for. -/
  signature : CallSignature
  /-- The exception regions. -/
  regions : List Region
  /-- The suspensions of a generator. -/
  generator : Option GeneratorLayout
  /-- Number of instructions, reached or not. -/
  size : Nat

/-- One instruction of a unit. -/
structure EmitSite where
  /-- The instruction. -/
  instr : Instr
  /-- What is known before it. -/
  before : AbstractState
  /-- How it is to be carried out. -/
  lowering : Lowering

/-- Takes units with a state of type `σ` and makes results of type `α` of them. -/
structure Emitter (σ α : Type) where
  /-- Starts a unit. -/
  start : UnitHeader → σ → Except EmitError σ
  /-- Takes an instruction. -/
  emit : EmitSite → σ → Except EmitError σ
  /-- Ends a unit. -/
  finish : σ → Except EmitError (α × σ)

namespace CompiledBody

/-- The header of a compiled body. -/
def header (b : CompiledBody) : UnitHeader where
  id := b.id
  code := b.code
  signature := b.signature
  regions := b.regions
  generator := b.generator
  size := b.instrs.length

/-- The instructions that some execution reaches. -/
def sites (m : TypeModel) (config : Config) (b : CompiledBody) : List EmitSite :=
  let ty := typerFor m config b.code
  (b.instrs.zip b.analysis.states.toList).filterMap fun (i, s) =>
    if s.dead then none
    else some { instr := i, before := s, lowering := i.op.lowering ty s b.returnType }

/-- Gives a unit to an emitter. -/
def feed {σ α : Type} (e : Emitter σ α) (header : UnitHeader) (sites : List EmitSite) (s : σ) :
    Except EmitError α := do
  let s ← e.start header s
  let s ← sites.foldlM (fun s site => e.emit site s) s
  return (← e.finish s).1

/-- Gives a compiled body to an emitter; a refusal is reported with the instructions of the
function. -/
def emit {σ α : Type} (m : TypeModel) (config : Config) (b : CompiledBody) (e : Emitter σ α)
    (s : σ) : Except CompileError α :=
  match feed e b.header (b.sites m config) s with
  | .ok a => .ok a
  | .error cause => .error (.emission b.code.qualname cause (Listing.text b.code))

end CompiledBody

/-! ## 2. Listings -/

namespace ListingEmitter

/-- A list of numbers. -/
def numbers (ns : List Nat) : String := "[" ++ ", ".intercalate (ns.map toString) ++ "]"

/-- The line of a region. -/
def regionLine (r : Region) : String :=
  "  region " ++ toString r.start ++ ".." ++ toString r.stop ++ " -> " ++ toString r.handler
    ++ " level " ++ toString r.level ++ " " ++ r.kind.text

/-- The line of a suspension. -/
def suspensionLine (s : Suspension) : String :=
  "  state " ++ toString s.id ++ " resume " ++ toString s.resume ++ " live " ++ numbers s.live
    ++ " saved [" ++ ", ".intercalate (s.saved.map Slot.text) ++ "]"

/-- The lines of a header. -/
def headerLines (h : UnitHeader) : List String :=
  ["unit " ++ h.code.qualname ++ " (" ++ h.code.filename ++ ":" ++ toString h.code.firstLine ++ ") "
    ++ h.id.label]
  ++ h.regions.map regionLine
  ++ (h.generator.map fun g => g.states.map suspensionLine).getD []

/-- The line of an instruction. -/
def siteLine (s : EmitSite) : String :=
  Text.padRight 48 s.instr.text ++ " ; " ++ s.before.stackText ++ " " ++ s.lowering.text

/-- Writes a listing; the state is the lines so far, and so is the result. -/
def emitter : Emitter (List String) (List String) where
  start h _ := .ok (headerLines h)
  emit site lines := .ok (lines ++ [siteLine site])
  finish lines := .ok (lines, lines)

end ListingEmitter

/-! ## 3. Recordings -/

/-- Keeps the instructions of a unit as they come. -/
def recordingEmitter : Emitter (List EmitSite) (List EmitSite) where
  start _ _ := .ok []
  emit site sites := .ok (sites ++ [site])
  finish sites := .ok (sites, [])

end Stackwise
