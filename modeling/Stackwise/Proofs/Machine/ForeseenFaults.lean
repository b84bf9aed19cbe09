import Stackwise.Proofs.Machine.BlockMachine
import Stackwise.Proofs.Machine.Ways
import Stackwise.Proofs.Types.Hierarchy

/-!
# Foreseen faults

The analysis sends the state before an operation to a handler only if it holds that the operation may
raise. Here that judgement is compared with what the machine does.

* `raises_of_operate`: an operation that ends in a fault that handlers see may raise, or makes a tuple
  of an iterable, or returns.
* `RaisePoint`: an instruction that raises inside a region, on some run of a function.
* `fault_foreseen`: there is an exception edge from such a point to the handler, and the state of the
  handler covers it, exactly if the operation is neither of the two.
* `faults_unforeseen`: both of the two do raise inside of regions.
-/

namespace Stackwise

/-! ## 1. Operations that raise -/

theorem Fault.Fatal.not_isCatchable {e : Fault} (h : e.Fatal) (ctx : Context) :
    e.isCatchable = false := by
  have hrun := h ctx default
  cases e with
  | raised _ | stopIteration _ | alreadyRunning => cases hrun
  | compile _ | broken _ _ _ | outOfFuel => rfl

namespace Machine

/-- What is raised by an operation that may not raise comes from one of two operations. -/
theorem raises_of_operate {op : Op} {lowering : Lowering} {ctx : Context} {a a' : Activation}
    {e : Fault} (h : operate op lowering ctx a = .error e a') (he : e.isCatchable = true) :
    op.mayRaise = true ∨ op = .listToTuple ∨ op = .returnValue := by
  by_contra hnone
  rw [not_or, not_or, Bool.not_eq_true] at hnone
  obtain ⟨hraise, hlist, hreturn⟩ := hnone
  have hfatal := operate_quiet hraise hlist (fun hop => absurd hop hreturn) ctx a e a' h
  rw [hfatal.not_isCatchable ctx] at he
  cases he

/-! ## 2. Points that raise -/

/-- An instruction that raises inside a region: the function that it belongs to, the activation
before it, and what it ends in. -/
structure RaisePoint where
  body : CompiledBody
  program : Program
  before : Activation
  step : Step
  region : Region
  fault : Fault
  after : Activation

namespace RaisePoint

/-- The offset of the instruction. -/
def offset (r : RaisePoint) : Nat := r.before.frame.pc

/-- The edge of the analysis that the exception takes. -/
def edge (r : RaisePoint) : Nat × Nat := (r.offset, r.region.handler)

/-- Some run of a compiled function comes to the point, and raises what a handler can catch. -/
structure Of (c : Compiler) (code : CodeObject) (sig : CallSignature) (r : RaisePoint) : Prop where
  body : c.analyze code sig = .ok r.body
  program : c.emit r.body Program.emitter none = .ok r.program
  raised : ∃ ctx f s n, Frame.Of r.program f ∧ Machine.after ctx n ⟨f, s⟩ = some r.before
    ∧ execute r.step ctx r.before = .error r.fault r.after
  step : r.program.step? r.offset = some r.step
  region : Region.find? r.program.regions r.offset = some r.region
  catchable : r.fault.isCatchable = true

variable {c : Compiler} {code : CodeObject} {sig : CallSignature} {r : RaisePoint}

/-- The point in the analysis: a live offset, its operation, and the handler of its blocks. -/
theorem Of.analysed (hr : r.Of c code sig) :
    (r.body.analysis.state r.offset).dead = false
      ∧ (∃ i, r.body.instrs[r.offset]? = some i ∧ i.op = r.step.op)
      ∧ (∃ u, (r.body.analysis.state r.offset).unwind? = some u ∧ u.handler = r.region.handler)
      ∧ (r.step.op.mayRaise = true ∨ r.step.op = .listToTuple ∨ r.step.op = .returnValue) := by
  obtain ⟨-, -, hb⟩ := CompiledBody.analyze_accepted hr.body
  have hp := Program.of_emit hb hr.program
  obtain ⟨ctx, f, s, n, -, -, hraised⟩ := hr.raised
  obtain ⟨i, hi, hlive, hstep⟩ := (hp.step _ _).mp hr.step
  obtain ⟨u, hu, haim⟩ := unwind?_of_find hb hp hlive hr.region
  rw [hstep, execute_eq_operate] at hraised
  rw [hstep]
  exact ⟨hlive, ⟨i, hi, rfl⟩, ⟨u, hu, congrArg Prod.fst haim⟩,
    raises_of_operate hraised hr.catchable⟩

/-- The edge is there exactly if the operation counts as one that may raise. -/
theorem Of.edge_iff (hr : r.Of c code sig) :
    r.edge ∈ r.body.analysis.exceptionEdges ↔ r.step.op.mayRaise = true := by
  obtain ⟨-, -, hb⟩ := CompiledBody.analyze_accepted hr.body
  obtain ⟨hlive, ⟨i, hi, hop⟩, ⟨u, hu, hhandler⟩, -⟩ := hr.analysed
  rw [edge, hb.solves.edges, ← hop]
  constructor
  · rintro ⟨-, j, hj, hmay, -⟩
    obtain rfl : i = j := Option.some.inj (hi.symm.trans hj)
    exact hmay
  · exact fun hmay => ⟨hlive, i, hi, hmay, u, hu, hhandler⟩

end RaisePoint

/-- **Which faults the analysis foresees.** Wherever a run of a compiled function raises what a
handler can catch, and a region gives the handler: the edge from there to the handler is one of the
analysis exactly if the instruction neither makes a tuple of an iterable nor returns; and where it is
one, the state that the exception leaves is within the state of the handler. -/
theorem fault_foreseen {c : Compiler} {code : CodeObject} {sig : CallSignature} {r : RaisePoint}
    (hm : c.model.Reached) (hr : r.Of c code sig) :
    (r.edge ∈ r.body.analysis.exceptionEdges
        ↔ r.step.op ≠ .listToTuple ∧ r.step.op ≠ .returnValue)
      ∧ (r.edge ∈ r.body.analysis.exceptionEdges →
        ∃ entry, (r.body.analysis.state r.offset).exceptionState? r.offset
            = .ok (some (r.region.handler, entry))
          ∧ entry.isWithin c.model (r.body.analysis.state r.region.handler) = true) := by
  obtain ⟨hlive, ⟨i, hi, hop⟩, ⟨u, hu, hhandler⟩, hraises⟩ := hr.analysed
  refine ⟨hr.edge_iff.trans ⟨fun hmay => ?_, fun hneither => ?_⟩, fun hedge => ?_⟩
  · constructor
    · intro hlist
      rw [hlist] at hmay
      cases hmay
    · intro hreturn
      rw [hreturn] at hmay
      cases hmay
  · rcases hraises with hmay | hlist | hreturn
    · exact hmay
    · exact absurd hlist hneither.1
    · exact absurd hreturn hneither.2
  · have hsolves := CompiledBody.analyze_solves
      (AbstractState.ascending_isWithin hm.built.ordered) hr.body
    obtain ⟨entry, hentry, -, hwithin⟩ :=
      hsolves.exception r.offset i u hi hlive (hop ▸ hr.edge_iff.mp hedge) hu
    rw [hhandler] at hentry hwithin
    exact ⟨entry, hentry, hwithin⟩

/-! ## 3. Faults of either kind -/

/-- The point after `n` steps of a call without arguments, if it raises there inside a region. -/
def raisePoint? (c : Compiler) (code : CodeObject) (sig : CallSignature) (n : Nat) :
    Option RaisePoint := do
  let ctx := context c Digest.standard 1
  let body ← (c.analyze code sig).toOption
  let program ← (c.emit body Program.emitter none).toOption
  match newFrame program (.ofCode code default default)
      (Array.replicate program.code.localCount none) ctx default with
  | .error _ _ => none
  | .ok f _ =>
    let before ← after ctx n ⟨f, default⟩
    let step ← program.step? before.frame.pc
    let region ← Region.find? program.regions before.frame.pc
    match execute step ctx before with
    | .ok _ _ => none
    | .error fault after =>
      if fault.isCatchable then some { body, program, before, step, region, fault, after } else none

theorem raisePoint?_of {c : Compiler} {code : CodeObject} {sig : CallSignature} {n : Nat}
    {r : RaisePoint} (h : raisePoint? c code sig n = some r) : r.Of c code sig := by
  obtain ⟨b, hb, h⟩ := Option.bind_eq_some_iff.mp h
  obtain ⟨p, hp, h⟩ := Option.bind_eq_some_iff.mp h
  split at h
  · cases h
  rename_i f s' hf
  obtain ⟨a, ha, h⟩ := Option.bind_eq_some_iff.mp h
  obtain ⟨step, hstep, h⟩ := Option.bind_eq_some_iff.mp h
  obtain ⟨region, hregion, h⟩ := Option.bind_eq_some_iff.mp h
  split at h
  · cases h
  rename_i e a' hraised
  split at h
  · rename_i hcatchable
    cases h
    exact ⟨toOption_eq_some.mp hb, toOption_eq_some.mp hp,
      ⟨_, f, default, n, .new Array.size_replicate hf, ha, hraised⟩, hstep, hregion, hcatchable⟩
  · cases h

theorem exists_raisePoint {c : Compiler} {code : CodeObject} {sig : CallSignature} {n : Nat}
    {P : RaisePoint → Bool} (h : (raisePoint? c code sig n).any P = true) :
    ∃ r : RaisePoint, r.Of c code sig ∧ P r = true := by
  obtain ⟨r, hr, hP⟩ := (Option.any_eq_true P _).mp h
  exact ⟨r, raisePoint?_of hr, hP⟩

theorem fault_foreseen_raiseAndCatch : TypeModel.empty.Reached ∧ ∃ r : RaisePoint,
    r.Of (.ofModel .empty {}) raiseAndCatch .dynamic ∧ r.step.op = .raiseVarargs 0
      ∧ r.edge ∈ r.body.analysis.exceptionEdges
      ∧ ∃ entry, (r.body.analysis.state r.offset).exceptionState? r.offset
          = .ok (some (r.region.handler, entry))
        ∧ entry.isWithin .empty (r.body.analysis.state r.region.handler) = true := by
  have hraises : (raisePoint? (.ofModel .empty {}) raiseAndCatch .dynamic 1).any
      (fun r => r.step.op == .raiseVarargs 0) = true := by
    simp only [raisePoint?, Compiler.analyze, CompiledBody.analyze, CompiledBody.build,
      CompiledBody.settle, Body.decode, InstructionStream.decode, InstructionStream.strayJump?_eq]
    decide +kernel
  obtain ⟨r, hr, hop⟩ := exists_raisePoint hraises
  rw [beq_iff_eq] at hop
  obtain ⟨hiff, hcovered⟩ := fault_foreseen .empty hr
  have hedge : r.edge ∈ r.body.analysis.exceptionEdges := by
    rw [hiff, hop]
    exact ⟨Op.noConfusion, Op.noConfusion⟩
  exact ⟨.empty, r, hr, hop, hedge, hcovered hedge⟩

/-- A text is returned inside of `try`, after it was stored in `x`; the handler returns `x`. Before
the `try`, `x` is a number. -/
def returnInTry : CodeObject :=
  { CodeObject.blank 0 "f" "f.py" with
    code := [100, 0, 125, 0, 122, 4, 100, 1, 4, 0, 125, 0, 83, 0, 1, 0, 1, 0, 1, 0, 89, 0, 124, 0,
      83, 0]
    constants := [.int 1, .str "s"]
    varnames := ["x"] }

/-- The same with a tuple of a number in place of the return. -/
def tupleInTry : CodeObject :=
  { CodeObject.blank 0 "f" "f.py" with
    code := [100, 0, 125, 0, 122, 6, 100, 1, 125, 0, 100, 0, 82, 0, 87, 0, 83, 0, 1, 0, 1, 0, 1, 0,
      89, 0, 124, 0, 83, 0]
    constants := [.int 1, .str "s"]
    varnames := ["x"] }

/-- **A checked return and a tuple of what is no iterable raise inside of regions, and the analysis
has no edge for them.** -/
theorem faults_unforeseen :
    (∃ r : RaisePoint, r.Of (.ofModel .withBuiltins {}) returnInTry { returns := TypeId.int }
      ∧ r.step.op = .returnValue ∧ r.edge ∉ r.body.analysis.exceptionEdges)
    ∧ ∃ r : RaisePoint, r.Of (.ofModel .withBuiltins {}) tupleInTry { returns := TypeId.int }
      ∧ r.step.op = .listToTuple ∧ r.edge ∉ r.body.analysis.exceptionEdges := by
  have hraises : ∀ x ∈ [(returnInTry, Op.returnValue), (tupleInTry, Op.listToTuple)],
      (raisePoint? (.ofModel .withBuiltins {}) x.1 { returns := TypeId.int } 6).any (fun r =>
        r.step.op == x.2 && !r.body.analysis.exceptionEdges.contains r.edge) = true := by
    simp only [raisePoint?, Compiler.analyze, CompiledBody.analyze, CompiledBody.build,
      CompiledBody.settle, Body.decode, InstructionStream.decode, InstructionStream.strayJump?_eq]
    decide +kernel
  have hmissed : ∀ x ∈ [(returnInTry, Op.returnValue), (tupleInTry, Op.listToTuple)],
      ∃ r : RaisePoint, r.Of (.ofModel .withBuiltins {}) x.1 { returns := TypeId.int }
        ∧ r.step.op = x.2 ∧ r.edge ∉ r.body.analysis.exceptionEdges := by
    intro x hx
    obtain ⟨r, hr, hmissed⟩ := exists_raisePoint (hraises x hx)
    rw [Bool.and_eq_true, beq_iff_eq, Bool.not_eq_true', ← Bool.not_eq_true,
      List.contains_iff_mem] at hmissed
    exact ⟨r, hr, hmissed⟩
  exact ⟨hmissed _ (.head _), hmissed _ (.tail _ (.head _))⟩

end Machine

end Stackwise
