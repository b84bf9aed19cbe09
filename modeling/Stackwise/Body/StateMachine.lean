import Stackwise.Body.Writer

/-!
# Generators as state machines

A generator leaves its body in the middle and comes back to the same place. `Body.toStateMachine`
puts a dispatcher in front of the body and a resume point behind every suspension:

* a yield becomes a suspension and its resume point;
* a delegation becomes a loop that hands each sent value on and suspends on each answer, until the
  inner iterator ends;
* the operation that starts a generator disappears.

State zero is the entry, on which the dispatcher goes on. Old offsets map past the dispatcher, so a
loop back to the top does not dispatch again.
-/

namespace Stackwise

namespace Body

/-- Writes one instruction as part of a state machine; `state` is the next free state. -/
def writeState (r : BodyWriter) (state : Nat) (i : Instr) : BodyWriter × Nat :=
  let r := r.startOn i.offset
  match i.op with
  | .genStart _ => (r, state)
  | .yieldValue => (r.pushAll [.suspend state, .resumePoint state] i, state + 1)
  | .yieldFrom =>
    (r.pushAll [.delegate state (i.offset + 1), .resumePoint state, .jump i.offset] i, state + 1)
  | op => (r.push op i.line i.origin, state)

/-- The resume points of a body with their states. -/
def resumePoints (is : List Instr) : List (Nat × Nat) :=
  is.filterMap fun i => match i.op with
    | .resumePoint state => some (state, i.offset)
    | _ => none

/-- The body with the targets of its dispatcher filled in. -/
def fillDispatcher (is : List Instr) : List Instr :=
  match is with
  | [] => []
  | first :: rest => { first with op := .resumeDispatch (resumePoints is) } :: rest

/-- The body of a generator as a state machine. -/
def toStateMachine (is : List Instr) : Except BodyError (List Instr × OffsetMap) := do
  let start := BodyWriter.empty.push (.resumeDispatch []) (is.head?.bind (·.line)) none
  let (r, _) := is.foldl (fun (r, state) i => writeState r state i) (start, 1)
  let (out, map) ← r.finish
  return (Instr.markTargets (fillDispatcher out), map)

end Body

end Stackwise
