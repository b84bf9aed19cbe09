import Stackwise.Analysis.BitSet
import Stackwise.Body.Error
import Stackwise.Body.Op

/-!
# Flow graphs

The basic blocks of a body and the edges between them.

* **Blocks** are the runs between leaders: the entry, every offset that an operation names, every
  resume point, and what follows an operation that can send control elsewhere.
* **Edges** from explicit jumps are known from the operations. Edges for exceptions raised inside a
  block depend on the open blocks and are added once the analysis has found them.
* **Order.** `order` lists the blocks that the entry reaches in reverse postorder of a depth-first
  search that follows successors as they stand.
-/

namespace Stackwise

/-! ## 1. Blocks and edges -/

/-- Why control can go from one block to another. -/
inductive EdgeKind where
  /-- To the next instruction. -/
  | fallthrough
  /-- By a jump. -/
  | branch
  /-- By an exception. -/
  | exception
  /-- From the dispatcher of a generator to a resume point. -/
  | resume
  /-- From a suspension to its resume point. -/
  | yield
  deriving DecidableEq, Repr

/-- The text of an edge kind. -/
def EdgeKind.text : EdgeKind → String
  | .fallthrough => "Fallthrough"
  | .branch => "Branch"
  | .exception => "Exception"
  | .resume => "Resume"
  | .yield => "Yield"

/-- A run of instructions that control enters only at its start. -/
structure BasicBlock where
  /-- Offset of the first instruction. -/
  start : Nat
  /-- One past the offset of the last instruction. -/
  stop : Nat
  /-- Blocks that control can go on to. -/
  successors : List (Nat × EdgeKind) := []
  /-- Blocks that control can come from. -/
  predecessors : List (Nat × EdgeKind) := []
  deriving DecidableEq, Inhabited, Repr

namespace BasicBlock

/-- Offset of the last instruction. -/
def last (b : BasicBlock) : Nat := b.stop - 1

/-- Number of instructions. -/
def size (b : BasicBlock) : Nat := b.stop - b.start

/-- The offsets of the instructions. -/
def offsets (b : BasicBlock) : List Nat := (List.range b.size).map (b.start + ·)

end BasicBlock

/-- The blocks of a body. -/
structure FlowGraph where
  /-- The blocks, in the order of their offsets. -/
  blocks : Array BasicBlock
  /-- The block of each instruction. -/
  blockOf : Array Nat
  /-- The blocks that the entry reaches, in reverse postorder. -/
  order : List Nat := []
  /-- The blocks that the entry reaches. -/
  reachable : BitSet := BitSet.empty
  deriving Inhabited

namespace FlowGraph

/-! ## 2. Queries -/

/-- Number of blocks. -/
def size (g : FlowGraph) : Nat := g.blocks.size

/-- The block with a number. -/
def block (g : FlowGraph) (i : Nat) : BasicBlock := g.blocks.getD i default

/-- The number of the block that holds an offset. -/
def blockAt (g : FlowGraph) (offset : Nat) : Nat := g.blockOf.getD offset 0

/-- Whether an offset is the first of its block. -/
def isLeader (g : FlowGraph) (offset : Nat) : Bool := (g.block (g.blockAt offset)).start == offset

/-- The successors of a block. -/
def successors (g : FlowGraph) (i : Nat) : List Nat := (g.block i).successors.map (·.1)

/-! ## 3. Edges -/

/-- Adds an edge, once. -/
def addEdge (g : FlowGraph) (src dst : Nat) (kind : EdgeKind) : FlowGraph :=
  if (g.block src).successors.contains (dst, kind) then g
  else
    let blocks := g.blocks.modify src fun b => { b with successors := b.successors ++ [(dst, kind)] }
    { g with blocks := blocks.modify dst fun b =>
        { b with predecessors := b.predecessors ++ [(src, kind)] } }

/-- Adds several edges from one block. -/
def addEdges (g : FlowGraph) (src : Nat) (edges : List (Nat × EdgeKind)) : FlowGraph :=
  edges.foldl (fun g e => g.addEdge src e.1 e.2) g

/-! ## 4. Depth-first order -/

/-- A depth-first search. The stack holds the blocks under way with the successors that they have
not tried; a block without any left goes to the front of the order. -/
def search (g : FlowGraph) : Nat → List (Nat × List Nat) → BitSet → List Nat → List Nat × BitSet
  | 0, _, visited, order => (order, visited)
  | _ + 1, [], visited, order => (order, visited)
  | fuel + 1, (b, []) :: rest, visited, order => search g fuel rest visited (b :: order)
  | fuel + 1, (b, s :: ss) :: rest, visited, order =>
    if visited.contains s then search g fuel ((b, ss) :: rest) visited order
    else search g fuel ((s, g.successors s) :: (b, ss) :: rest) (visited.insert s) order

/-- A number of steps that every search fits into: one for each block and each edge. -/
def searchBound (g : FlowGraph) : Nat :=
  g.blocks.foldl (fun n b => n + b.successors.length + 1) 1

/-- Computes the order and the reachable blocks. -/
def sorted (g : FlowGraph) : FlowGraph :=
  let (order, reachable) := g.search g.searchBound [(0, g.successors 0)]
    ((BitSet.withCapacity g.size).insert 0) []
  { g with order, reachable }

/-! ## 5. Building -/

/-- Whether the instruction after an operation starts a block. -/
def endsBlock (op : Op) : Bool := op.isForcedJump || op.suspends || !op.targets.isEmpty

/-- The offsets that an instruction makes leaders. -/
def leadersOf (i : Instr) : List Nat :=
  i.op.targets
    ++ (match i.op with
      | .resumePoint _ => [i.offset]
      | _ => [])
    ++ if endsBlock i.op then [i.offset + 1] else []

/-- The first instruction that names an offset outside a body of the given length, with that
offset. -/
def strayTarget? (length : Nat) (is : List Instr) : Option (Nat × Nat) :=
  is.findSome? fun i => (i.op.targets.find? (length ≤ ·)).map fun t => (i.offset, t)

/-- The offsets at which blocks start, in increasing order. -/
def leaders (is : List Instr) : List Nat :=
  let set := is.foldl (fun s i => (leadersOf i).foldl BitSet.insert s) (BitSet.ofList [0])
  set.toList.filter (· < is.length)

/-- The blocks that start at the given offsets, the last one ending at `length`. -/
def runs (length : Nat) : List Nat → List BasicBlock
  | [] => []
  | [start] => [{ start, stop := length }]
  | start :: next :: rest => { start, stop := next } :: runs length (next :: rest)

/-- The edges that leave a block by its last operation. -/
def edgesOf (g : FlowGraph) (length : Nat) (i : Instr) : List (Nat × EdgeKind) :=
  let onward :=
    if !i.op.isForcedJump && i.offset + 1 < length then
      [(g.blockAt (i.offset + 1), if i.op.suspends then EdgeKind.yield else .fallthrough)]
    else []
  let branch := i.op.branchTarget?.toList.map fun t => (g.blockAt t, EdgeKind.branch)
  let handler := i.op.handlerTarget?.toList.map fun t => (g.blockAt t, EdgeKind.exception)
  let resume := match i.op with
    | .resumeDispatch states => states.map fun p => (g.blockAt p.2, EdgeKind.resume)
    | _ => []
  onward ++ branch ++ handler ++ resume

/-- The blocks of a body without edges. -/
def partition (is : List Instr) : FlowGraph :=
  let blocks := runs is.length (leaders is)
  { blocks := blocks.toArray
    blockOf := (blocks.zipIdx.flatMap fun (b, i) => List.replicate b.size i).toArray }

/-- The graph of a body with the edges that its operations name. -/
def build (is : List Instr) : Except BodyError FlowGraph :=
  if is.isEmpty then .error (.bytecode .empty)
  else
    match strayTarget? is.length is with
    | some (offset, target) => .error (.invalidJumpTarget offset target)
    | none =>
      let code := is.toArray
      let bare := partition is
      let linked := (List.range bare.size).foldl (fun g b =>
        match code[(g.block b).last]? with
        | some i => g.addEdges b (g.edgesOf is.length i)
        | none => g) bare
      .ok linked.sorted

/-- Adds the edges of raised exceptions, given by the offsets of the raising instruction and of the
handler. -/
def addExceptionEdges (g : FlowGraph) (edges : List (Nat × Nat)) : FlowGraph :=
  let linked := edges.foldl (fun g e =>
    match g.blockOf[e.1]?, g.blockOf[e.2]? with
    | some a, some b => g.addEdge a b .exception
    | _, _ => g) g
  linked.sorted

end FlowGraph

end Stackwise
