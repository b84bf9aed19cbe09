import Stackwise.Analysis.Region
import Stackwise.Analysis.Suspension
import Stackwise.Body.Decode
import Stackwise.Body.StateMachine
import Stackwise.Body.With
import Stackwise.Compile.Error
import Stackwise.Compile.FunctionId

/-!
# Compiled bodies

Everything the analysis finds out about a function, ready for an emitter: its final instructions,
where the offsets of the code object went, the flow graph, the fixed point, the exception regions
and, for a generator, its suspensions.

The body is analysed as it was decoded first. If a pass then changes it, the analysis runs again on
the changed body.
-/

namespace Stackwise

/-- A function that has been analysed. -/
structure CompiledBody where
  /-- The number of the code object. -/
  id : FunctionId
  /-- The code object. -/
  code : CodeObject
  /-- The types that it was compiled for. -/
  signature : CallSignature
  /-- The final instructions. -/
  instrs : List Instr
  /-- From the offsets of the code object to those of the final instructions. -/
  offsets : OffsetMap
  /-- The blocks of the final instructions, with exception edges. -/
  graph : FlowGraph
  /-- The fixed point over the final instructions. -/
  analysis : Analysis
  /-- The exception regions. -/
  regions : List Region
  /-- The suspensions of a generator. -/
  generator : Option GeneratorLayout
  deriving Inhabited

namespace CompiledBody

/-- Instructions after a pass, and whether a pass changed them. -/
structure Passed where
  /-- The instructions. -/
  instrs : List Instr
  /-- From the offsets of the code object. -/
  offsets : OffsetMap
  /-- Whether the instructions are no longer those that were analysed. -/
  changed : Bool

/-- Applies a pass if it is called for. -/
def Passed.apply (r : Passed) (wanted : Bool)
    (pass : List Instr → Except BodyError (List Instr × OffsetMap)) :
    Except BodyError Passed :=
  if wanted then do
    let (instrs, map) ← pass r.instrs
    return { instrs, offsets := r.offsets.andThen map, changed := true }
  else .ok r

/-- The typing of a code object's operations. -/
def typerFor (m : TypeModel) (config : Config) (c : CodeObject) : Typer :=
  { model := m, constants := c.constants, config }

/-- The state at the entry of a function. -/
def entryState (c : CodeObject) (s : CallSignature) : AbstractState :=
  .entry (s.entryLocals c) c.closureSize

/-- The final instructions with their graph and fixed point. -/
def settle (ty : Typer) (c : CodeObject) (entry : AbstractState) :
    Except BodyError (Passed × FlowGraph × Analysis) := do
  let (instrs, offsets) ← Body.decode c
  let graph ← FlowGraph.build instrs
  let analysis ← Fixpoint.analyze ty instrs graph entry
  let r : Passed := { instrs, offsets, changed := false }
  let r ← r.apply (ty.config.desugarWith && Body.hasWith instrs) Body.expandWith
  let r ← r.apply c.isGenerator Body.toStateMachine
  if r.changed then do
    let graph ← FlowGraph.build r.instrs
    let analysis ← Fixpoint.analyze ty r.instrs graph entry
    return (r, graph, analysis)
  else return (r, graph, analysis)

/-- Analyses a function. -/
def build (m : TypeModel) (config : Config) (c : CodeObject) (s : CallSignature) :
    Except BodyError CompiledBody := do
  let (r, graph, analysis) ← settle (typerFor m config c) c (entryState c s)
  let graph := graph.addExceptionEdges analysis.exceptionEdges
  return {
    id := .ofCode c
    code := c
    signature := s
    instrs := r.instrs
    offsets := r.offsets
    graph
    analysis
    regions := Region.table r.instrs analysis
    generator :=
      if c.isGenerator then some (.describe r.instrs graph analysis c.localCount) else none }

/-- Analyses a function and names it in the fault. -/
def analyze (m : TypeModel) (config : Config) (c : CodeObject) (s : CallSignature) :
    Except CompileError CompiledBody :=
  match build m config c s with
  | .ok b => .ok b
  | .error e => .error (.body c.qualname e)

/-- The return type that matters for the instructions. What a generator returns travels in the
exception that ends it, as it is. -/
def returnType (b : CompiledBody) : TypeId :=
  if b.generator.isSome then TypeId.object else b.signature.returns

/-- The final instructions, each with what is known of the stack before it. -/
def listing (m : TypeModel) (b : CompiledBody) : String :=
  String.join ((b.instrs.zip b.analysis.states.toList).map fun (i, s) =>
    Text.padRight 48 i.text ++ " ; "
      ++ (if s.dead then "<unreachable>" else s.describeStack m) ++ "\n")

end CompiledBody

end Stackwise
