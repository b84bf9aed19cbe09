import Stackwise.Analysis.Fixpoint

/-!
# Exception regions

Which handler catches an exception at an offset is a property of the open blocks there. After the
fixed point they are known everywhere, so a table of regions can say it: runs of offsets whose
exceptions go to the same place.
-/

namespace Stackwise

/-- What a handler is for. -/
inductive RegionKind where
  /-- It tests the type of the exception, or catches all. -/
  | except
  /-- It runs and raises again. -/
  | finally_
  /-- It is the exit of a `with` statement. -/
  | with_
  deriving DecidableEq, Repr

/-- The text of a region kind. -/
def RegionKind.text : RegionKind → String
  | .except => "Except"
  | .finally_ => "Finally"
  | .with_ => "With"

/-- A run of offsets whose exceptions go to one handler. -/
structure Region where
  /-- First offset. -/
  start : Nat
  /-- One past the last offset. -/
  stop : Nat
  /-- Offset of the handler. -/
  handler : Nat
  /-- The level to which the stack is cut. -/
  level : Nat
  /-- What the handler is for. -/
  kind : RegionKind
  /-- Level of the outermost handler that is left on the way. -/
  restoreAt : Option Nat
  /-- Handler of the nearest `finally` clause around. -/
  finallyEntry : Option Nat
  deriving DecidableEq, Repr

namespace Region

/-- Whether the region holds an offset. -/
def contains (r : Region) (offset : Nat) : Bool := r.start ≤ offset && offset < r.stop

/-- What the handler at an offset is for, judged by its first three operations: a test of the
exception's type among them, or nothing but discarded values, makes it an `except` clause. -/
def classify (code : Array Instr) (handler : Nat) (kind : BlockKind) : RegionKind :=
  match kind with
  | .withBlock => .with_
  | .tryBlock =>
    let head := (code.extract handler (handler + 3)).toList.map (·.op)
    let tests := head.any fun
      | .jumpIfNotExcMatch _ => true
      | _ => false
    if tests || head == [.popTop, .popTop, .popTop] then .except else .finally_

/-- The handler of the nearest `finally` clause around the innermost protected block. -/
def finallyEntry? (code : Array Instr) (s : AbstractState) : Option Nat :=
  (AbstractState.outerBlocks s.blocks).findSome? fun
    | .protect handler _ kind =>
      if classify code handler kind = .finally_ then some handler else none
    | .handling _ => none

/-- The region that a state puts its own offset into. -/
def ofState? (code : Array Instr) (offset : Nat) (s : AbstractState) : Option Region :=
  if s.dead then none
  else s.unwind?.map fun u =>
    { start := offset
      stop := offset + 1
      handler := u.handler
      level := u.level
      kind := classify code u.handler u.kind
      restoreAt := u.restoreAt
      finallyEntry := finallyEntry? code s }

/-- Whether two regions send exceptions to the same place in the same way. -/
def sameTarget (a b : Region) : Bool :=
  a.handler == b.handler && a.level == b.level && a.restoreAt == b.restoreAt
    && a.finallyEntry == b.finallyEntry

/-- Joins the regions of consecutive offsets into runs. -/
def merge : List (Option Region) → Option Region → List Region
  | [], run => run.toList
  | next :: rest, none => merge rest next
  | none :: rest, some run => run :: merge rest none
  | some next :: rest, some run =>
    if run.sameTarget next then merge rest (some { run with stop := next.stop })
    else run :: merge rest (some next)

/-- The table of a body, in the order of the offsets. -/
def table (is : List Instr) (a : Analysis) : List Region :=
  let code := is.toArray
  merge (a.states.toList.zipIdx.map fun (s, offset) => ofState? code offset s) none

/-- The first region of the table that ends after an offset, if it holds the offset. -/
def find? (regions : List Region) (offset : Nat) : Option Region :=
  match regions.dropWhile fun r => r.stop ≤ offset with
  | r :: _ => if r.contains offset then some r else none
  | [] => none

end Region

end Stackwise
