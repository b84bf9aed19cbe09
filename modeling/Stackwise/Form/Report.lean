import Stackwise.Analysis.AbstractState
import Stackwise.Compile.Emitter
import Stackwise.Form.Op
import Stackwise.Form.Types

/-!
# States and reports in forms

Slots are written as they are described: `int`, `type[int]`, `str.upper`. The stack and the blocks
of a state are written from the bottom and from the outside. What the analysis found in a body is
reported part by part.
-/

namespace Stackwise

namespace Form

/-! ## 1. Abstract states -/

/-- Reads a slot. -/
def toSlot (m : TypeModel) (f : Form) : Except ReadError Slot := do
  let cs := (← f.toText).toList
  let typeOf (cs : List Char) : Except ReadError TypeId := toType m (.text (String.ofList cs))
  if cs.take 5 == "type[".toList && cs.getLast? == some ']' then
    return .classObject (← typeOf (cs.drop 5).dropLast)
  else if cs.contains '.' then
    return .method (← typeOf (cs.takeWhile (· != '.')))
      (String.ofList ((cs.dropWhile (· != '.')).drop 1))
  else return .value (← typeOf cs)

/-- Reads a block. -/
def toBlock (f : Form) : Except ReadError Block := do
  match ← (f.item 0).toText with
  | "finally" =>
    return .protect (← (f.item 1).toNat) (← (f.item 2).toNat) (← (f.item 3).toBlockKind)
  | "except" => return .handling (← (f.item 1).toNat)
  | _ => expected "block"

/-- Reads a state. -/
def toState (m : TypeModel) (f : Form) : Except ReadError AbstractState := do
  let locals ← (← (f.field "locals").toList).mapM (·.optional (toSlot m))
  let cells ← (← (f.field "cells").toList).mapM (·.optional (toSlot m))
  if ← (f.field "dead").toBool then return .unreached locals.length cells.length
  let stack ← (← (f.field "stack").toList).mapM (toSlot m)
  let blocks ← (← (f.field "blocks").toList).mapM toBlock
  let keywords ← (f.field "kw").optional toTexts
  return { stack := stack.reverse, locals, cells, blocks := blocks.reverse, dead := false, keywords }

/-- The form of a slot. -/
def slot (m : TypeModel) (s : Slot) : Form := .text (s.describe m)

/-- The form of a block. -/
def block : Block → Form
  | .protect h l k => .list [.text "finally", .nat h, .nat l, .text k.text]
  | .handling l => .list [.text "except", .nat l]

/-- A field for a list that is not empty. -/
def someField (name : String) (items : List Form) : List (String × Form) :=
  if items.isEmpty then [] else [(name, .list items)]

/-- The form of a state. -/
def state (m : TypeModel) (s : AbstractState) : Form :=
  if s.dead then .text "dead"
  else
    .fields ([("stack", .listOf (slot m) s.stack.reverse)]
      ++ someField "locals" (s.locals.map (.opt (slot m)))
      ++ someField "cells" (s.cells.map (.opt (slot m)))
      ++ someField "blocks" (s.blocks.reverse.map block)
      ++ (s.keywords.map fun k => ("kw", Form.texts k)).toList)

/-! ## 2. Compiled bodies -/

/-- The form of a lowering. -/
def lowering (m : TypeModel) : Lowering → Form
  | .elided => .text "elided"
  | .dynamic => .text "dynamic"
  | .specialized operands result =>
    .fields [("operands", .listOf (typeName m) operands), ("result", typeName m result)]
  | .directCall owner name signature =>
    .fields [("owner", typeName m owner), ("name", .text name), ("signature", .text signature.text)]
  | .return_ checked => .fields [("return", .bool checked)]
  | .suspend state => .fields [("suspend", .nat state)]
  | .resume state => .fields [("resume", .nat state)]

/-- The form of a flow graph. -/
def graph (g : FlowGraph) : Form :=
  let edges (es : List (Nat × EdgeKind)) : Form :=
    .listOf (fun e => .list [.nat e.1, .text e.2.text]) es
  .fields [
    ("blocks", .listOf (fun b => .fields [
      ("start", .nat b.start), ("end", .nat b.stop), ("succ", edges b.successors),
      ("pred", edges b.predecessors)]) g.blocks.toList),
    ("rpo", .nats g.order),
    ("reachable", .nats ((List.range g.size).filter g.reachable.contains))]

/-- The form of a fixed point. -/
def analysis (m : TypeModel) (a : Analysis) : Form := .fields [
  ("states", .listOf (state m) a.states.toList),
  ("exception_edges", .natPairs a.exceptionEdges), ("steps", .nat a.steps)]

/-- The form of a table of regions. -/
def regions (rs : List Region) : Form :=
  .listOf (fun r => .fields [
    ("start", .nat r.start), ("end", .nat r.stop), ("handler", .nat r.handler),
    ("level", .nat r.level), ("kind", .text r.kind.text), ("restore", .opt .nat r.restoreAt),
    ("finally", .opt .nat r.finallyEntry)]) rs

/-- The form of a generator's suspensions. -/
def layout (m : TypeModel) (g : GeneratorLayout) : Form := .fields [
  ("state_count", .nat g.stateCount), ("max_saved", .nat g.maxSaved),
  ("states", .listOf (fun s => .fields [
    ("id", .nat s.id), ("suspend", .nat s.suspend), ("resume", .nat s.resume),
    ("live", .nats s.live), ("saved", .listOf (slot m) s.saved),
    ("delegates", .bool s.delegates)]) g.states)]

/-- The form of a compiled body and of the instructions that an emitter was given. -/
def compiled (m : TypeModel) (b : CompiledBody) (sites : List EmitSite) : Form := .fields [
  ("instrs", body b.instrs), ("offsets", .natPairs b.offsets.toList),
  ("reachable", .nat b.analysis.reachableCount), ("graph", graph b.graph),
  ("analysis", analysis m b.analysis), ("regions", regions b.regions),
  ("generator", .opt (layout m) b.generator),
  ("lowering", .listOf (fun s => .list [.nat s.instr.offset, lowering m s.lowering]) sites)]

end Form

end Stackwise
