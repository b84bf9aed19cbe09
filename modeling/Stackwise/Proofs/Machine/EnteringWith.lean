import Stackwise.Proofs.Machine.SingleSteps
import Stackwise.Proofs.Machine.LiveForms

/-!
# Entering `with` blocks

A `with` block is entered by one instruction, or by the six operations that it is spelled out with.

* `enterManager`: what both do: the exit method is looked up, then the enter method, and this is called.
* `stepOnce_setupWith`: the one instruction. `after_entering`: the six operations.
* `WithEntry`: a frame at an entry, of a function that was compiled in both ways.
* `entering_spelled_out`: the frame and its twin in the other program come to the body of the block, or
  fail at the same point, with the same exception. It finds handlers that belong together.
-/

namespace Stackwise

/-! ## 1. The protocol -/

/-- Where entering a block can fail. -/
inductive EntryPoint where
  | exitLookup
  | enterLookup
  | enterCall
  deriving DecidableEq, Repr

/-- The number of operations before the one that fails, if an entry is spelled out. -/
def EntryPoint.steps : EntryPoint → Nat
  | .exitLookup => 1
  | .enterLookup => 3
  | .enterCall => 4

/-- How entering a block ends, and with what store. -/
inductive EntryOutcome where
  | entered (exit result : Value) (s : Store)
  | failed (point : EntryPoint) (fault : Fault) (s : Store)

namespace Machine

/-- Enters a block with a context manager. -/
def enterManager (manager : Value) (ctx : Context) (s : Store) : EntryOutcome :=
  match special manager "__exit__" ctx s with
  | .error fault t => .failed .exitLookup fault t
  | .ok exit t =>
    match special manager "__enter__" ctx t with
    | .error fault t => .failed .enterLookup fault t
    | .ok enter t =>
      match ctx.call enter [] [] t with
      | .error fault t => .failed .enterCall fault t
      | .ok result t => .entered exit result t

/-- Special methods are methods. -/
theorem special_eq_ok {v w : Value} {name : String} {ctx : Context} {s t : Store}
    (h : special v name ctx s = .ok w t) : ∃ id nameId, w = .method id v nameId name := by
  have hrun : ∀ found : Bool, (if found then newMethod v name
      else raiseText TypeId.attributeError name : Action Value) ctx s = .ok w t →
      ∃ id nameId, w = .method id v nameId name := by
    intro found hfound
    cases found with
    | true =>
      cases hfound
      exact ⟨_, _, rfl⟩
    | false => cases hfound
  unfold special at h
  split at h
  · exact hrun (s.nativeHas _ name) h
  · exact hrun (hasTypeMethod ctx.compiler.model v name) h

/-! ## 2. The one instruction -/

variable {f : Frame} {st : Step} {lowering : Lowering} {below : List Value}

/-- **The one instruction** enters the block. Where that fails, it has taken the manager, and nothing
below it. -/
theorem stepOnce_setupWith (hst : f.program.step? f.pc = some st) {h : Nat}
    (hexec : execute st = operate (.setupWith h) lowering) {manager : Value}
    (hstack : f.stack = manager :: below) (ctx : Context) (s : Store) :
    match enterManager manager ctx s with
    | .entered exit result t => stepOnce ctx ⟨f, s⟩
      = .ok none ⟨{ f with stack := result :: exit :: below, pc := f.pc + 1 }, t⟩
    | .failed _ fault t => ∃ top, stepOnce ctx ⟨f, s⟩
      = routeFault st f.pc fault ctx ⟨{ f with stack := top ++ below }, t⟩ := by
  have hrun : execute st ctx ⟨f, s⟩
      = ((liftM (special manager "__exit__") >>= fun exit =>
          liftM (special manager "__enter__") >>= fun enter =>
          push exit >>= fun _ => liftM (call enter []) >>= push) >>= fun _ => return .next
        : FrameAction Flow) ctx ⟨{ f with stack := below }, s⟩ := by
    rw [hexec]
    cases f
    subst hstack
    rfl
  rw [run_bind, run_lift_bind] at hrun
  rw [stepOnce_run hst, hrun]
  unfold enterManager
  cases special manager "__exit__" ctx s with
  | error fault t => exact ⟨[], rfl⟩
  | ok exit t =>
    dsimp only
    rw [run_lift_bind]
    cases special manager "__enter__" ctx t with
    | error fault t => exact ⟨[], rfl⟩
    | ok enter t =>
      have hpush : (push exit >>= fun _ => liftM (call enter []) >>= push : FrameAction Unit) ctx
          ⟨{ f with stack := below }, t⟩
            = (liftM (call enter []) >>= push : FrameAction Unit) ctx
              ⟨{ f with stack := exit :: below }, t⟩ := rfl
      dsimp only
      rw [hpush, run_lift_bind, call]
      cases ctx.call enter [] [] t with
      | error fault t => exact ⟨[exit], rfl⟩
      | ok result t => rfl

/-! ## 3. The six operations -/

variable {ty : Typer} {b : CompiledBody} {h d : Nat} {bs : List Block}

theorem after_succ {ctx : Context} {a a' : Activation} (h : stepOnce ctx a = .ok none a') (n : Nat) :
    after ctx (n + 1) a = after ctx n a' := by
  rw [after, h]

/-- **The six operations** enter the block one after the other. Where that fails, one of them has taken
its operands, and nothing below the manager. -/
theorem after_entering (hp : f.program.Of ty b) (hops : b.Enters f.pc h)
    (hforms : CompiledBody.Enters.Forms b f.pc h d bs) {manager : Value}
    (hstack : f.stack = manager :: below) (ctx : Context) (s : Store) :
    match enterManager manager ctx s with
    | .entered exit result t => after ctx 6 ⟨f, s⟩
      = some ⟨{ f with stack := result :: exit :: below, pc := f.pc + 6 }, t⟩
    | .failed point fault t => ∃ stack u step top,
      after ctx point.steps ⟨f, s⟩ = some ⟨{ f with stack, pc := f.pc + point.steps }, u⟩
        ∧ f.program.step? (f.pc + point.steps) = some step
        ∧ (Body.expandOp (.setupWith h))[point.steps]? = some step.op
        ∧ stepOnce ctx ⟨{ f with stack, pc := f.pc + point.steps }, u⟩
          = routeFault step (f.pc + point.steps) fault ctx
            ⟨{ f with stack := top ++ below, pc := f.pc + point.steps }, t⟩ := by
  have hstep : ∀ {j op}, (Body.expandOp (.setupWith h))[j]? = some op → j ≤ 5 →
      ∃ st lowering, f.program.step? (f.pc + j) = some st ∧ st.op = op
        ∧ execute st = operate op lowering := fun hop hj =>
    (hforms.inside _ hj).elim fun _ hform => hform.step hp (hops hop)
  obtain ⟨_, _, hst₀, -, hexec₀⟩ := hstep (j := 0) rfl (by decide)
  obtain ⟨st₁, _, hst₁, hop₁, hexec₁⟩ := hstep (j := 1) rfl (by decide)
  obtain ⟨_, _, hst₂, -, hexec₂⟩ := hstep (j := 2) rfl (by decide)
  obtain ⟨st₃, _, hst₃, hop₃, hexec₃⟩ := hstep (j := 3) rfl (by decide)
  obtain ⟨st₄, _, hst₄, hop₄, hexec₄⟩ := hstep (j := 4) rfl (by decide)
  obtain ⟨_, _, hst₅, -, hexec₅⟩ := hstep (j := 5) rfl (by decide)
  have hdup := stepOnce_dupTop hst₀ hexec₀ hstack ctx s
  have hexit := stepOnce_loadSpecial
    (f := { f with stack := manager :: manager :: below, pc := f.pc + 1 }) hst₁ hexec₁ rfl ctx s
  unfold enterManager
  cases hexitLookup : special manager "__exit__" ctx s with
  | error fault t =>
    rw [hexitLookup] at hexit
    exact ⟨_, s, st₁, [manager], after_succ hdup 0, hst₁, congrArg some hop₁.symm, hexit⟩
  | ok exit t =>
    rw [hexitLookup] at hexit
    have hrot := stepOnce_rotTwo
      (f := { f with stack := exit :: manager :: below, pc := f.pc + 2 }) hst₂ hexec₂ rfl ctx t
    have henter := stepOnce_loadSpecial
      (f := { f with stack := manager :: exit :: below, pc := f.pc + 3 }) hst₃ hexec₃ rfl ctx t
    have hthree : ∀ n, after ctx (n + 3) ⟨f, s⟩
        = after ctx n ⟨{ f with stack := manager :: exit :: below, pc := f.pc + 3 }, t⟩ := fun n =>
      ((after_succ hdup _).trans (after_succ hexit _)).trans (after_succ hrot n)
    dsimp only
    cases henterLookup : special manager "__enter__" ctx t with
    | error fault u =>
      rw [henterLookup] at henter
      exact ⟨_, t, st₃, [exit], hthree 0, hst₃, congrArg some hop₃.symm, henter⟩
    | ok enter u =>
      rw [henterLookup] at henter
      obtain ⟨id, nameId, rfl⟩ := special_eq_ok henterLookup
      have hcall := stepOnce_callMethod
        (f := { f with stack := .method id manager nameId "__enter__" :: exit :: below
                       pc := f.pc + 4 }) hst₄ hexec₄ rfl ctx u
      dsimp only
      cases hresult : ctx.call (.method id manager nameId "__enter__") [] [] u with
      | error fault x =>
        rw [hresult] at hcall
        exact ⟨_, u, st₄, [exit], (hthree 1).trans (after_succ henter 0), hst₄,
          congrArg some hop₄.symm, hcall⟩
      | ok result x =>
        rw [hresult] at hcall
        have hopen := stepOnce_setupFinally
          (f := { f with stack := result :: exit :: below, pc := f.pc + 5 }) hst₅ hexec₅ ctx x
        exact (hthree 3).trans
          (((after_succ henter _).trans (after_succ hcall _)).trans (after_succ hopen 0))

/-! ## 4. The theorem -/

/-- A frame at the entry of a `with` block, of a function that is compiled in both ways. -/
structure WithEntry where
  /-- The body that keeps the instruction, and its program. -/
  body : CompiledBody
  program : Program
  /-- The body that is spelled out, and its program. -/
  body' : CompiledBody
  program' : Program
  /-- The frame, in the first program. -/
  frame : Frame
  step : Step
  handler : Nat
  /-- The stack: the context manager, and what lies below. -/
  manager : Value
  below : List Value

namespace WithEntry

/-- Where an offset of the first program went in the second one. -/
def place (r : WithEntry) : Nat → Nat := Body.place r.body.instrs

/-- The frame in the second program. -/
def twin (r : WithEntry) : Frame :=
  { r.frame with program := r.program', pc := r.place r.frame.pc }

/-- The programs are those of the function, and the stack holds below the manager what an exception in
the region around looks at. -/
structure Of (r : WithEntry) (c : Compiler) (code : CodeObject) (sig : CallSignature) : Prop where
  body : (c.spelling false).analyze code sig = .ok r.body
  body' : (c.spelling true).analyze code sig = .ok r.body'
  program : (c.spelling false).emit r.body Program.emitter none = .ok r.program
  program' : (c.spelling true).emit r.body' Program.emitter none = .ok r.program'
  runs : r.frame.program = r.program
  step : r.program.step? r.frame.pc = some r.step
  enters : r.step.op = .setupWith r.handler
  stack : r.frame.stack = r.manager :: r.below
  held : ∀ region ∈ Region.find? r.program.regions r.frame.pc, region.HeldBy r.below

end WithEntry

variable {c : Compiler} {code : CodeObject} {sig : CallSignature} {r : WithEntry}

/-- **Entering a block, spelled out or not.** Take a frame at the entry of a `with` block, in a program
that keeps the instruction, and its twin in the program with the entry spelled out, both with the same
store. The one step of the frame and the six of its twin look the same methods up and make the same
call, in this order.

* If all of it succeeds, both come to the first instruction of the block. The twin is still the frame
  in the other program.
* If something fails, it is the same in both, with the same exception and the same store. Either it
  comes to handlers that belong together, with the same stack, or it leaves both frames. Only the
  offsets that are noted down in its traceback differ. -/
theorem entering_spelled_out (hr : r.Of c code sig) (ctx : Context) (s : Store) :
    r.body.Spells r.body' ∧ r.place (r.frame.pc + 1) = r.place r.frame.pc + 6
      ∧ match enterManager r.manager ctx s with
        | .entered exit result t =>
          stepOnce ctx ⟨r.frame, s⟩ = .ok none
            ⟨{ r.frame with stack := result :: exit :: r.below, pc := r.frame.pc + 1 }, t⟩
          ∧ after ctx 6 ⟨r.twin, s⟩ = some
            ⟨{ r.twin with stack := result :: exit :: r.below, pc := r.place (r.frame.pc + 1) }, t⟩
        | .failed point fault t => ∃ top top' stack u step,
          -- what fails
          stepOnce ctx ⟨r.frame, s⟩
            = routeFault r.step r.frame.pc fault ctx ⟨{ r.frame with stack := top ++ r.below }, t⟩
          ∧ after ctx point.steps ⟨r.twin, s⟩
            = some ⟨{ r.twin with stack, pc := r.place r.frame.pc + point.steps }, u⟩
          ∧ r.program'.step? (r.place r.frame.pc + point.steps) = some step
          ∧ (Body.expandOp r.step.op)[point.steps]? = some step.op
          ∧ stepOnce ctx ⟨{ r.twin with stack, pc := r.place r.frame.pc + point.steps }, u⟩
            = routeFault step (r.place r.frame.pc + point.steps) fault ctx
              ⟨{ r.twin with
                stack := top' ++ r.below
                pc := r.place r.frame.pc + point.steps }, t⟩
          -- where the exception goes
          ∧ Lands r.program' r.place (stepOnce ctx ⟨r.frame, s⟩)
            (stepOnce ctx ⟨{ r.twin with stack, pc := r.place r.frame.pc + point.steps }, u⟩) := by
  have hs := CompiledBody.spells_of_analyze hr.body hr.body'
  obtain ⟨-, -, hb⟩ := CompiledBody.analyze_accepted hr.body
  obtain ⟨-, -, hb'⟩ := CompiledBody.analyze_accepted hr.body'
  have hp := Program.of_emit hb hr.program
  have hp' := Program.of_emit hb' hr.program'
  obtain ⟨i, hi, hlive, hst⟩ := (hp.step _ _).mp hr.step
  have hop : i.op = .setupWith r.handler := by
    rw [← hr.enters, hst]
  have hexec : execute r.step = operate (.setupWith r.handler) r.step.lowering := by
    rw [← hop, hst]
    exact execute_eq_operate _ _ _ _ _
  obtain ⟨henters, hbehind⟩ := hs.enters hi hop
  have hforms := henters.forms hb' (CompiledBody.FormAt.spelled hs hb hb' ⟨hlive, rfl, rfl⟩)
  have hkept := stepOnce_setupWith (hr.runs ▸ hr.step) hexec hr.stack ctx s
  have hspelled := after_entering (f := r.twin) hp' henters hforms hr.stack ctx s
  refine ⟨hs, hbehind, ?_⟩
  cases henter : enterManager r.manager ctx s with
  | entered exit result t =>
    rw [henter] at hkept hspelled
    refine ⟨hkept, ?_⟩
    rw [show r.place (r.frame.pc + 1) = r.place r.frame.pc + 6 from hbehind]
    exact hspelled
  | failed point fault t =>
    rw [henter] at hkept hspelled
    obtain ⟨top, hkept⟩ := hkept
    obtain ⟨stack, u, step, top', hafter, hstep, hspelling, hfails⟩ := hspelled
    have hexpand : (Body.expandOp i.op)[point.steps]? = some step.op := by
      rw [hop]
      cases point <;> exact hspelling
    have hraises : ∀ lasti, r.step.op ≠ .reraise lasti := by
      rw [hr.enters]
      nofun
    have hraises' : ∀ lasti, step.op ≠ .reraise lasti := by
      cases point <;> (rw [← Option.some.inj hspelling]; nofun)
    have hline : step.line = r.step.line := by
      obtain ⟨hplain, -⟩ := Body.expandOp_plain (hop ▸ List.mem_of_getElem? hexpand)
      obtain ⟨i', hi', -, hline⟩ := hs.entries.entry hi hexpand hplain
      obtain ⟨j, hj, -, hst'⟩ := (hp'.step _ _).mp hstep
      cases hi'.symm.trans hj
      rw [hst', hst]
      exact hline
    have hname : r.program'.name = r.frame.program.name := by
      rw [Program.name, Program.name, hr.runs, hp'.code, hp.code, hs.code]
    have hinside : point.steps ≤ 5 := by
      cases point <;> decide
    have haim := hs.region hb hb' hp hp' hi hop hlive hinside
    rw [← hr.runs] at haim
    have hlands := routeFault_lands haim (hr.runs ▸ hr.held) hname hline hraises hraises' top top'
      fault ctx t
    refine ⟨top, top', stack, u, step, hkept, hafter, hstep, ?_, hfails, ?_⟩
    · rw [hr.enters, ← hop]
      exact hexpand
    · rw [hkept]
      exact hfails ▸ hlands

/-- A frame at the second offset of a program, with None as the context manager. -/
def atEntry (p : Program) : Frame := ⟨p, #[], #[], [.none], 2, 0, none, none⟩

/-- In `try: with None: return None` there is nothing to look up. Both programs go on at the handler of
the `try` statement. -/
theorem entering_spelled_out_guardedWith : ∃ r : WithEntry,
    r.Of (.ofModel .withBuiltins {}) Fixpoint.guardedWith .dynamic ∧ r.frame.stack = [.none]
      ∧ ∃ ctx a u a', stepOnce ctx ⟨r.frame, {}⟩ = .ok none a ∧ a.frame.pc = 9
        ∧ after ctx 1 ⟨r.twin, {}⟩ = some u ∧ stepOnce ctx u = .ok none a'
        ∧ a.Matches r.program' r.place a' ∧ r.place 9 = 14 := by
  have hlands : ((Compiler.ofBuiltins.spelling false).analyze Fixpoint.guardedWith
        .dynamic).toOption.any (fun b =>
      ((Compiler.ofBuiltins.spelling true).analyze Fixpoint.guardedWith .dynamic).toOption.any
        fun b' =>
      ((Compiler.ofBuiltins.spelling false).emit b Program.emitter none).toOption.any fun p =>
      ((Compiler.ofBuiltins.spelling true).emit b' Program.emitter none).toOption.any fun _ =>
      (p.step? 2).any fun step => (Region.find? p.regions 2).any fun region =>
      (failure? (special .none "__exit__" (plainContext 1) {})).any fun _ =>
      (answer? (stepOnce (plainContext 1) ⟨atEntry p, {}⟩)).any fun r =>
        step.op == .setupWith 7 && region.level == 0 && region.restoreAt.isNone && r.1.isNone
          && r.2.frame.pc == 9 && Body.place b.instrs 9 == 14) = true := by
    simp only [Compiler.analyze, CompiledBody.analyze, CompiledBody.build, CompiledBody.settle,
      Body.decode, InstructionStream.decode, InstructionStream.strayJump?_eq]
    decide +kernel
  obtain ⟨b, hb, hlands⟩ := (Option.any_eq_true _ _).mp hlands
  obtain ⟨b', hb', hlands⟩ := (Option.any_eq_true _ _).mp hlands
  obtain ⟨p, hp, hlands⟩ := (Option.any_eq_true _ _).mp hlands
  obtain ⟨p', hp', hlands⟩ := (Option.any_eq_true _ _).mp hlands
  obtain ⟨step, hstep, hlands⟩ := (Option.any_eq_true _ _).mp hlands
  obtain ⟨region, hregion, hlands⟩ := (Option.any_eq_true _ _).mp hlands
  obtain ⟨⟨fault, t⟩, hlookup, hlands⟩ := (Option.any_eq_true _ _).mp hlands
  obtain ⟨⟨exit, a⟩, hlanded, hlands⟩ := (Option.any_eq_true _ _).mp hlands
  rw [toOption_eq_some] at hb hb' hp hp'
  rw [failure?_eq_some] at hlookup
  rw [answer?_eq_some] at hlanded
  have hmanager : enterManager .none (plainContext 1) {} = .failed .exitLookup fault t := by
    rw [enterManager, hlookup]
  simp only [Bool.and_eq_true, beq_iff_eq, Option.isNone_iff_eq_none] at hlands
  obtain ⟨⟨⟨⟨⟨hop, hlevel⟩, hrestore⟩, rfl⟩, hpc⟩, hplace⟩ := hlands
  let r : WithEntry := ⟨b, p, b', p', atEntry p, step, 7, .none, []⟩
  have hr : r.Of .ofBuiltins Fixpoint.guardedWith .dynamic := ⟨hb, hb', hp, hp', rfl, hstep, hop, rfl,
    fun found hfound => by
      cases hregion.symm.trans hfound
      refine ⟨by rw [hlevel]; exact Nat.zero_le _, fun _ hr => ?_⟩
      rw [hrestore] at hr
      cases hr⟩
  obtain ⟨-, -, houtcome⟩ := entering_spelled_out hr (plainContext 1) {}
  rw [show enterManager r.manager (plainContext 1) {} = _ from hmanager] at houtcome
  obtain ⟨_, _, stack, u, _, -, hafter, -, -, -, houtcome⟩ := houtcome
  rw [show stepOnce (plainContext 1) ⟨r.frame, {}⟩ = _ from hlanded] at houtcome
  generalize hstepped : stepOnce (plainContext 1) ⟨_, u⟩ = outcome at houtcome
  cases houtcome with
  | goesOn hmatches =>
    exact ⟨r, hr, rfl, plainContext 1, a, _, _, hlanded, hpc, hafter, hstepped, hmatches, hplace⟩

end Machine

end Stackwise
