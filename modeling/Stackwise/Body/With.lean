import Stackwise.Body.Writer

/-!
# Spelling out `with`

The operation that enters a `with` block looks two methods up, calls one of them and opens a block,
all at once. `Body.expandWith` writes it as operations of one job each, so that the lookups and the
call are typed like any other. The block keeps its level: the result of the entry stays outside it.
-/

namespace Stackwise

namespace Body

/-- Whether a body enters a `with` block. -/
def hasWith (is : List Instr) : Bool :=
  is.any fun i => match i.op with
    | .setupWith _ => true
    | _ => false

/-- The operations that stand for one operation. -/
def expandOp : Op → List Op
  | .setupWith handler => [
      .dupTop, .loadSpecial "__exit__", .rotTwo, .loadSpecial "__enter__", .callFunction 0,
      .setupFinally handler .withBlock 1]
  | op => [op]

/-- Spells out every entry of a `with` block. -/
def expandWith (is : List Instr) : Except BodyError (List Instr × OffsetMap) :=
  (is.foldl (fun r i => (r.startOn i.offset).pushAll (expandOp i.op) i) BodyWriter.empty).finish

end Body

end Stackwise
