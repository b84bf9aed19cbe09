import Stackwise.Body.Error
import Stackwise.Body.Op

/-!
# Writing bodies

A pass over a body writes a new one and records where each old offset went. Operations are written
with their old targets; `finish` moves all of them at once through the recorded map.
-/

namespace Stackwise

/-- A body in the making. -/
structure BodyWriter where
  /-- The new instructions so far, their targets still old offsets. -/
  out : Array Instr := #[]
  /-- Where old offsets went. -/
  map : OffsetMap := OffsetMap.empty
  /-- Old offsets that wait for the next instruction. -/
  pending : List Nat := []

namespace BodyWriter

/-- The writer that has written nothing. -/
def empty : BodyWriter := {}

instance : Inhabited BodyWriter := ⟨empty⟩

/-- Starts on the old instruction at `old`: it maps to the next instruction written. -/
def startOn (r : BodyWriter) (old : Nat) : BodyWriter := { r with pending := r.pending ++ [old] }

/-- The offset of the next instruction. -/
def next (r : BodyWriter) : Nat := r.out.size

/-- Writes an operation; the offsets that wait map to it. -/
def push (r : BodyWriter) (op : Op) (line origin : Option Nat) : BodyWriter :=
  { out := r.out.push { offset := r.next, op, line, origin, isJumpTarget := false }
    map := r.pending.foldl (fun m old => m.insert old r.next) r.map
    pending := [] }

/-- Writes several operations that come from one instruction. -/
def pushAll (r : BodyWriter) (ops : List Op) (i : Instr) : BodyWriter :=
  ops.foldl (fun r op => r.push op i.line i.origin) r

/-- Moves every target and gives the new body with the map of offsets. -/
def finish (r : BodyWriter) : Except BodyError (List Instr × OffsetMap) := do
  let moved ← r.out.toList.mapM fun i =>
    match i.op.relabel r.map with
    | .ok op => .ok { i with op }
    | .error target => .error (.invalidJumpTarget i.offset target)
  return (Instr.markTargets moved, r.map)

end BodyWriter

end Stackwise
