import Stackwise.Analysis.Fixpoint
import Stackwise.Analysis.Liveness

/-!
# Suspensions

What a generator has to keep at each of its suspensions: the local variables that are read after
the resumption, and the operand stack.
-/

namespace Stackwise

/-- One suspension of a generator. -/
structure Suspension where
  /-- The state while suspended here. -/
  id : Nat
  /-- Offset of the suspending operation. -/
  suspend : Nat
  /-- Offset of the resume point. -/
  resume : Nat
  /-- The local variables that are live after the resumption. -/
  live : List Nat
  /-- The operand stack that is kept, lowest slot first. -/
  saved : List Slot
  /-- Whether an inner iterator is on top of the kept stack. -/
  delegates : Bool
  deriving DecidableEq, Repr

/-- The suspensions of a generator, by state. -/
structure GeneratorLayout where
  /-- The suspensions, by increasing state. -/
  states : List Suspension := []
  deriving DecidableEq, Repr

namespace GeneratorLayout

/-- Number of states, the entry included. -/
def stateCount (g : GeneratorLayout) : Nat := g.states.length + 1

/-- The largest number of slots kept. -/
def maxSaved (g : GeneratorLayout) : Nat := g.states.foldl (fun n s => max n s.saved.length) 0

/-- The suspension of a state, by its place in the list. -/
def state? (g : GeneratorLayout) : Nat → Option Suspension
  | 0 => none
  | i + 1 => g.states[i]?

/-- The suspension before a resume point. -/
def suspensionAt? (code : Array Instr) (live : Array BitSet) (a : Analysis) (position : Nat)
    (i : Instr) : Option Suspension :=
  match i.op, position with
  | .resumePoint state, suspend + 1 => some {
      id := state
      suspend
      resume := i.offset
      live := (live.getD position BitSet.empty).toList
      saved := (a.state position).stack.reverse
      delegates := match code[suspend]? with
        | some { op := .delegate _ _, .. } => true
        | _ => false }
  | _, _ => none

/-- The layout of a state machine, given its fixed point and its graph with the exception edges. -/
def describe (is : List Instr) (g : FlowGraph) (a : Analysis) (locals : Nat) : GeneratorLayout :=
  let live := Liveness.liveIn is g a.exceptionEdges locals
  let code := is.toArray
  let found := is.zipIdx.filterMap fun (i, position) => suspensionAt? code live a position i
  { states := found.mergeSort fun s t => s.id ≤ t.id }

end GeneratorLayout

end Stackwise
