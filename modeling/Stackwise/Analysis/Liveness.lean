import Stackwise.Analysis.FlowGraph

/-!
# Liveness

The local variables that may be read later, before each instruction. An instruction that may raise
into a handler also needs what the handler reads, before its own definition takes effect.

The sets at the block entries grow from round to round. A round that changes nothing ends the
search, and there are no more rounds than variables in all blocks together.
-/

namespace Stackwise

namespace Liveness

/-- The variable that an operation reads. -/
def used? : Op → Option Nat
  | .loadFast i | .deleteFast i => some i
  | _ => none

/-- The variable that an operation binds. -/
def defined? : Op → Option Nat
  | .storeFast i => some i
  | _ => none

/-- What the search reads. -/
structure Problem where
  /-- The instructions. -/
  code : Array Instr
  /-- Their blocks, with the exception edges. -/
  graph : FlowGraph
  /-- The handlers that each instruction may raise into. -/
  raises : Array (List Nat)
  /-- Number of local variables. -/
  locals : Nat

/-- The problem of a body. -/
def Problem.of (is : List Instr) (g : FlowGraph) (edges : List (Nat × Nat)) (locals : Nat) :
    Problem where
  code := is.toArray
  graph := g
  raises := edges.foldl (fun r e => r.modify e.1 (· ++ [e.2])) (Array.replicate is.length [])
  locals := locals

/-- What is live before an instruction, given what is live after it. -/
def before (q : Problem) (blockIn : Array BitSet) (offset : Nat) (live : BitSet) : BitSet :=
  match q.code[offset]? with
  | none => live
  | some i =>
    let live := match defined? i.op with
      | some x => live.erase x
      | none => live
    let live := (q.raises.getD offset []).foldl (fun live h =>
      live.union (blockIn.getD (q.graph.blockAt h) BitSet.empty)) live
    match used? i.op with
    | some x => live.insert x
    | none => live

/-- What is live after a block. -/
def after (q : Problem) (blockIn : Array BitSet) (block : Nat) : BitSet :=
  (q.graph.block block).successors.foldl (fun live e =>
    if e.2 = .exception then live else live.union (blockIn.getD e.1 BitSet.empty))
    (BitSet.withCapacity q.locals)

/-- What is live at the entry of a block. -/
def atEntry (q : Problem) (blockIn : Array BitSet) (block : Nat) : BitSet :=
  (q.graph.block block).offsets.foldr (before q blockIn) (after q blockIn block)

/-- One round over the given blocks; tells whether a set grew. -/
def round (q : Problem) : List Nat → Bool × Array BitSet → Bool × Array BitSet
  | [], r => r
  | b :: rest, (changed, blockIn) =>
    let old := blockIn.getD b BitSet.empty
    let live := atEntry q blockIn b
    round q rest (changed || old.growsBy live, blockIn.setIfInBounds b (old.union live))

/-- Repeats rounds until one changes nothing, at most `fuel` times. -/
def iterate (q : Problem) (order : List Nat) : Nat → Array BitSet → Array BitSet
  | 0, blockIn => blockIn
  | fuel + 1, blockIn =>
    match round q order (false, blockIn) with
    | (true, blockIn) => iterate q order fuel blockIn
    | (false, blockIn) => blockIn

/-- A number of rounds that always suffices: each one but the last adds a read variable to the set
of a block. -/
def roundBound (q : Problem) : Nat :=
  q.graph.size * (q.code.toList.filterMap fun i => used? i.op).length + 1

/-- Writes down what is live before each instruction of a block. -/
def record (q : Problem) (blockIn : Array BitSet) (out : Array BitSet) (block : Nat) :
    Array BitSet :=
  ((q.graph.block block).offsets.foldr (fun offset (out, live) =>
    let live := before q blockIn offset live
    (out.setIfInBounds offset live, live)) (out, after q blockIn block)).1

/-- What is live before each instruction; nothing where the entry does not reach. -/
def liveIn (is : List Instr) (g : FlowGraph) (edges : List (Nat × Nat)) (locals : Nat) :
    Array BitSet :=
  let q := Problem.of is g edges locals
  let order := g.order.reverse
  let blockIn := iterate q order (roundBound q)
    (Array.replicate g.size (BitSet.withCapacity locals))
  order.foldl (record q blockIn) (Array.replicate is.length BitSet.empty)

end Liveness

end Stackwise
