import Stackwise.Analysis.Effect
import Stackwise.Analysis.FlowGraph

/-!
# The fixed point

The state before every instruction, found by running the effects of the operations until nothing
changes.

* Every block starts unreached except the entry. A visit runs a block from its entry state, writes
  down the state before each instruction, and joins what leaves it into the blocks that it reaches;
  a block whose entry state changed is visited again, in the order of these changes.
* An operation that may raise also joins into its handler, before its own effect.
* The number of visits is bounded; a body that needs more is refused.
-/

namespace Stackwise

/-- The fixed point of a body. -/
structure Analysis where
  /-- The state before each instruction. -/
  states : Array AbstractState
  /-- Pairs of a raising offset and its handler, in increasing order. -/
  exceptionEdges : List (Nat × Nat)
  /-- Number of visits. -/
  steps : Nat
  deriving Inhabited

namespace Analysis

/-- The state before the instruction at an offset. -/
def state (a : Analysis) (offset : Nat) : AbstractState := a.states.getD offset default

/-- Number of instructions that some execution reaches. -/
def reachableCount (a : Analysis) : Nat := (a.states.toList.filter fun s => !s.dead).length

end Analysis

namespace Fixpoint

/-! ## 1. The problem -/

/-- What the iteration reads. -/
structure Problem where
  /-- The instructions. -/
  code : Array Instr
  /-- Their blocks. -/
  graph : FlowGraph
  /-- The typing of operations. -/
  typer : Typer

/-- What the iteration changes. -/
structure Progress where
  /-- The state at the entry of each block. -/
  blockIn : Array AbstractState
  /-- The state before each instruction. -/
  states : Array AbstractState
  /-- Blocks to be visited, the next one first. -/
  worklist : List Nat
  /-- Exceptions found so far. -/
  exceptionEdges : List (Nat × Nat)
  deriving Inhabited

/-- Puts a block at the end of the worklist unless it waits there already. -/
def Progress.enqueue (p : Progress) (block : Nat) : Progress :=
  if p.worklist.contains block then p else { p with worklist := p.worklist ++ [block] }

/-- Adds a pair to an increasing list. -/
def insertEdge (e : Nat × Nat) : List (Nat × Nat) → List (Nat × Nat)
  | [] => [e]
  | f :: rest =>
    if e = f then f :: rest
    else if e.1 < f.1 || (e.1 == f.1 && e.2 < f.2) then e :: f :: rest
    else f :: insertEdge e rest

/-! ## 2. One visit -/

/-- Joins a state into the block that starts at `target`. -/
def propagate (q : Problem) (source target : Nat) (s : AbstractState) (p : Progress) :
    Except BodyError Progress :=
  if q.code.size ≤ target then .error (.fallsOffEnd source)
  else if !q.graph.isLeader target then .error (.invalidJumpTarget source target)
  else do
    let block := q.graph.blockAt target
    let old := p.blockIn.getD block default
    let (changed, new) ← AbstractState.joinFrom q.typer.model target old s
    if changed then return { p with blockIn := p.blockIn.setIfInBounds block new }.enqueue block
    else return p

/-- Joins the exceptions that an operation may raise into their handler. -/
def propagateException (q : Problem) (offset : Nat) (s : AbstractState) (op : Op) (p : Progress) :
    Except BodyError Progress :=
  if op.mayRaise then do
    match ← s.exceptionState? offset with
    | none => return p
    | some (handler, entry) =>
      propagate q offset handler entry
        { p with exceptionEdges := insertEdge (offset, handler) p.exceptionEdges }
  else .ok p

/-- Joins what leaves an operation into the blocks that it goes to. What goes on to the next
instruction of the same block is given back. -/
def propagateAll (q : Problem) (offset : Nat) (isLast : Bool) :
    Transfer → Option AbstractState → Progress →
      Except BodyError (Option AbstractState × Progress)
  | [], onward, p => .ok (onward, p)
  | (.jump target, s) :: rest, onward, p => do
    let p ← propagate q offset target s p
    propagateAll q offset isLast rest onward p
  | (.next, s) :: rest, onward, p =>
    if isLast then do
      let p ← propagate q offset (offset + 1) s p
      propagateAll q offset isLast rest onward p
    else propagateAll q offset isLast rest (some s) p

/-- Runs the instructions at the given offsets of one block. -/
def visitFrom (q : Problem) (last : Nat) :
    List Nat → AbstractState → Progress → Except BodyError Progress
  | [], _, p => .ok p
  | offset :: rest, s, p =>
    let p := { p with states := p.states.setIfInBounds offset s }
    if s.dead then .ok p
    else
      match q.code[offset]? with
      | none => .ok p
      | some i => do
        let p ← propagateException q offset s i.op p
        let transfer ← i.op.effect q.typer offset s
        let (onward, p) ← propagateAll q offset (offset == last) transfer none p
        match onward with
        | some next => visitFrom q last rest next p
        | none => return p

/-- Visits a block. -/
def visit (q : Problem) (block : Nat) (p : Progress) : Except BodyError Progress :=
  let b := q.graph.block block
  visitFrom q b.last b.offsets (p.blockIn.getD block default) p

/-! ## 3. The iteration -/

/-- Visits blocks until none waits, at most `left` times; gives the number of visits left too. -/
def iterate (q : Problem) (bound : Nat) : Nat → Progress → Except BodyError (Nat × Progress)
  | left, p =>
    match p.worklist, left with
    | [], left => .ok (left, p)
    | _ :: _, 0 => .error (.noFixedPoint bound)
    | block :: rest, left + 1 => do
      let p ← visit q block { p with worklist := rest }
      iterate q bound left p

/-- The largest number of visits that is ever allowed. -/
def maxBound : Nat := 0xffffffffffffffff

/-- The bound on the number of visits: for each block, one and then one for each rise of a slot. -/
def stepBound (config : Config) (m : TypeModel) (blocks instructions : Nat)
    (entry : AbstractState) : Nat :=
  match config.maxSteps with
  | some n => n
  | none =>
    let slots := entry.locals.length + entry.cells.length + instructions + 1
    min maxBound (blocks * (1 + slots * (m.maxDepth + 2)))

/-- The fixed point of a body that starts in the given state. -/
def analyze (ty : Typer) (is : List Instr) (g : FlowGraph) (entry : AbstractState) :
    Except BodyError Analysis := do
  let bound := stepBound ty.config ty.model g.size is.length entry
  let unreached := AbstractState.unreached entry.locals.length entry.cells.length
  let start : Progress :=
    { blockIn := (Array.replicate g.size unreached).setIfInBounds 0 entry
      states := Array.replicate is.length unreached
      worklist := [0]
      exceptionEdges := [] }
  let (left, p) ← iterate { code := is.toArray, graph := g, typer := ty } bound bound start
  return { states := p.states, exceptionEdges := p.exceptionEdges, steps := bound - left }

end Fixpoint

end Stackwise
