import Stackwise.Proofs.Machine.CaughtExceptions
import Stackwise.Proofs.Machine.DeadLocals
import Stackwise.Proofs.Machine.Exhaustion

/-!
# Exceptions thrown into generators

An exception that is thrown into a suspended generator is raised at the suspension.

* `Frame.Suspending`: a frame that has just yielded, as the analysis sees it. `runSteps_suspending`:
  every frame that yields is one.
* `runSteps_thrown`: the frame comes back to its resume point and raises there.
* `throwInto_suspended`: what the call comes to, by how that run of the frame ends.
* `throw_reaches_handler`: the exception comes to the handler of the innermost protected block around
  the suspension, or leaves the generator.
-/

namespace Stackwise

/-- The value that a frame was left with, if it was suspended. -/
def Exit.yielded? : Exit → Option Value
  | .yields v => some v
  | .returns _ => none

theorem Exit.yielded?_eq_some {exit : Exit} {v : Value} :
    exit.yielded? = some v ↔ exit = .yields v := by
  cases exit with
  | returns w => exact ⟨nofun, nofun⟩
  | yields w =>
    constructor
    · rintro ⟨⟩
      rfl
    · rintro ⟨⟩
      rfl

/-! ## 1. Frames that yield -/

/-- A frame that has just yielded: behind its instruction stands the resume point of its state, with
the stack that the frame has and the blocks of the instruction. -/
structure Frame.Suspending (b : CompiledBody) (f : Frame) : Prop where
  resumed : ∃ j, b.instrs[f.pc + 1]? = some j ∧ j.op = .resumePoint f.state
  live : (b.analysis.state (f.pc + 1)).dead = false
  depth : f.stack.length = (b.analysis.state (f.pc + 1)).depth
  blocks : (b.analysis.state (f.pc + 1)).blocks = (b.analysis.state f.pc).blocks

namespace Machine

variable {ty : Typer} {b : CompiledBody} {p : Program} {f : Frame} {ctx : Context} {s : Store}
  {v : Value} {a : Activation}

/-- A fault that is routed does not make the frame yield or return. -/
theorem routeFault_exit {step : Step} {pc : Nat} {e : Fault} {a' : Activation} {exit : Option Exit}
    (h : routeFault step pc e ctx a = .ok exit a') : exit = none := by
  have hrouted : Footing.routed .all a.frame.footing (· = none) (routeFault step pc e ctx a) :=
    routeFault_outcome (Tolerance.all_context ctx) trivial rfl (Tolerance.all_store a.store)
  rw [h] at hrouted
  exact hrouted.1

theorem step_suspending (hb : b.Accepted ty) (hp : p.Of ty b) (hf : f.Locked b p)
    (h : stepOnce ctx ⟨f, s⟩ = .ok (some (.yields v)) a) :
    a.frame.Fitting b p ∧ a.frame.Suspending b := by
  obtain ⟨hfit, hrun | hwait⟩ := hf
  · obtain ⟨i, hi, hstep⟩ := step?_of_live hb hp hrun.live
    have hprogram : f.program = p := hfit.program
    rw [stepOnce_run (by rw [hprogram]; exact hstep), execute_eq_operate] at h
    obtain ⟨ws, hm, hall⟩ := hb.solves.moves hi hrun.live
    cases hdispatch : i.op.isDispatch with
    | true =>
      obtain ⟨states, hop⟩ := Op.eq_resumeDispatch hdispatch
      rw [operate_fresh hrun hi hop] at h
      cases h
    | false =>
      have hout := operate_running hb hp hfit hrun (Tolerance.all_context ctx)
        (Tolerance.all_store s) hi hdispatch hm
        (i.op.lowering ty (b.analysis.state f.pc) b.returnType)
      obtain ⟨hr, hpc, -⟩ := shift_of_running hfit hrun hi
      cases hres : operate i.op (i.op.lowering ty (b.analysis.state f.pc) b.returnType) ctx
          ⟨f, s⟩ with
      | error e a' =>
        rw [hres] at h
        cases routeFault_exit h
      | ok flow a' =>
        rw [hres] at h hout
        cases flow with
        | yields w =>
          cases h
          obtain ⟨-, k, bs, hk, hfoot, hw⟩ := hout
          obtain ⟨hlive, hdepth, hblocks⟩ := hall hw
          obtain ⟨j, hj, hop⟩ := (hb.machine (hb.generator_of_suspension hi hk)).resumed hi hk
          have hstate : a.frame.state = k := congrArg Footing.state hfoot
          have hsame : a.frame.pc = f.pc := (congrArg Footing.pc hfoot).trans hpc
          refine ⟨?_, ⟨j, hsame ▸ hj, hstate ▸ hop⟩, hsame ▸ hlive, ?_, ?_⟩
          · rw [Frame.Fitting, hfoot]
            exact ⟨hr.program, hr.locals, hr.cells⟩
          · rw [hsame]
            exact hdepth.symm
          · -- a suspension opens and closes no block
            rw [hsame]
            rcases Op.moves_ways hm hw with ⟨hbs, -⟩ | ⟨h, -, hjump⟩
            · refine hblocks.trans (hbs.trans ?_)
              generalize i.op = op at hk
              cases op <;> first | rfl | cases hk
            · cases hjump
        | next | jump _ | leave _ => cases h
  · obtain ⟨i, states, o, j, hi, -, -, -, -, -, hoperate⟩ := operate_waiting hb hwait
    obtain ⟨i', hi', hstep⟩ := step?_of_live hb hp (waiting_live hb hwait)
    rw [hi] at hi'
    cases hi'
    have hprogram : f.program = p := hfit.program
    rw [stepOnce_run (by rw [hprogram]; exact hstep), execute_eq_operate, hoperate] at h
    cases h

/-- **Every frame that yields** stands before its resume point. -/
theorem runSteps_suspending (hb : b.Accepted ty) (hp : p.Of ty b) {n : Nat} (hf : f.Locked b p)
    (h : runSteps ctx n ⟨f, s⟩ = .ok (.yields v) a) :
    a.frame.Fitting b p ∧ a.frame.Suspending b := by
  induction n generalizing f s with
  | zero => cases h
  | succ n ih =>
    have hstep := step_locked hb hp hf (Tolerance.all_context ctx) (Tolerance.all_store s)
    rw [runSteps] at h
    cases hres : stepOnce ctx ⟨f, s⟩ with
    | error e a' =>
      rw [hres] at h
      cases h
    | ok exit a' =>
      rw [hres] at h hstep
      cases exit with
      | none => exact ih ⟨hstep.2.1, .inl hstep.2.2⟩ h
      | some exit =>
        cases h
        exact step_suspending hb hp hf hres

/-! ## 2. The resumption -/

theorem resumePoint_thrown {e : Raised} (hgiven : f.resumption = some (.throw e)) (k : Nat)
    (lowering : Lowering) (ctx : Context) (s : Store) :
    operate (.resumePoint k) lowering ctx ⟨f, s⟩
      = .error (.raised e) ⟨{ f with resumption := none }, s⟩ := by
  have hpoint : resumePoint ctx ⟨f, s⟩ = .error (.raised e) ⟨{ f with resumption := none }, s⟩ := by
    cases f
    subst hgiven
    rfl
  have hrun : operate (.resumePoint k) lowering ctx ⟨f, s⟩
      = (resumePoint >>= fun _ => return .next : FrameAction Flow) ctx ⟨f, s⟩ := rfl
  rw [hrun, run_bind, hpoint]

/-- A frame that comes back goes to its resume point. -/
theorem stepOnce_waiting (hb : b.Accepted ty) (hp : p.Of ty b) (hf : f.Fitting b p)
    (hw : f.Waiting b) {o : Nat} {j : Instr} (hj : b.instrs[o]? = some j)
    (hop : j.op = .resumePoint f.state) (ctx : Context) (s : Store) :
    stepOnce ctx ⟨f, s⟩ = .ok none ⟨{ f with pc := o }, s⟩ := by
  have hprogram : f.program = p := hf.program
  obtain ⟨i, states, o', j', hi, -, hj', hop', -, -, hoperate⟩ := operate_waiting hb hw
  obtain ⟨i', hi', hstep⟩ := step?_of_live hb hp (waiting_live hb hw)
  obtain rfl : i = i' := Option.some.inj (hi.symm.trans hi')
  obtain rfl := (hb.machine hw.generator).resumePoint_unique hb.fits.dense hj hop hj' hop'
  rw [stepOnce_run (by rw [hprogram]; exact hstep), execute_eq_operate, hoperate]
  rfl

/-- **A frame that comes back with an exception** goes to its resume point and raises the exception
there. -/
theorem stepOnce_thrown (hb : b.Accepted ty) (hp : p.Of ty b) (hf : f.Fitting b p)
    (hw : f.Waiting b) {e : Raised} (hgiven : f.resumption = some (.throw e)) {o : Nat} {j : Instr}
    (hj : b.instrs[o]? = some j) (hop : j.op = .resumePoint f.state)
    (hlive : (b.analysis.state o).dead = false) (ctx : Context) (s : Store) :
    stepOnce ctx ⟨f, s⟩ = .ok none ⟨{ f with pc := o }, s⟩
      ∧ ∃ step, stepOnce ctx ⟨{ f with pc := o }, s⟩
        = routeFault step o (.raised e) ctx ⟨{ f with pc := o, resumption := none }, s⟩ := by
  have hprogram : f.program = p := hf.program
  refine ⟨stepOnce_waiting hb hp hf hw hj hop ctx s, ?_⟩
  obtain ⟨j', hj', hstep⟩ := step?_of_live hb hp hlive
  obtain rfl : j = j' := Option.some.inj (hj.symm.trans hj')
  refine ⟨⟨j.op, j.op.lowering ty (b.analysis.state o) b.returnType, j.line⟩, ?_⟩
  rw [stepOnce_run (f := { f with pc := o }) (by rw [hprogram]; exact hstep),
    execute_eq_operate, hop, resumePoint_thrown (f := { f with pc := o }) hgiven]

/-! ## 3. The call -/

section Call

variable {c : Compiler} {d : Digest} {g k : Nat} {x : Generator} {saved : SavedFrame} {e : Raised}
  {t : Store}

/-- What comes of running the frame of a generator. -/
def ended (g : Nat) : Except Fault (Exit × Frame) → Action Value
  | .ok (.yields v, f) => do
    match f.suspend? with
    | .ok saved =>
      updateGenerator g fun x => { x with progress := .suspended saved }
      return v
    | .error e => throw e
  | .ok (.returns v, _) => throw (.stopIteration (some v))
  | .error e => do
    if isStopIteration (← model) e then
      raiseText TypeId.runtimeError "generator raised StopIteration"
    else throw e

theorem runGenerator_run (f : Frame) (ctx : Context) (hdepth : s.depth < maxDepth) :
    runGenerator g f ctx s = match runSteps ctx ctx.fuel ⟨f, s.enter⟩ with
      | .ok exit a => ended g (.ok (exit, a.frame)) ctx a.store.leave
      | .error e a => ended g (.error e) ctx a.store.leave := by
  have hunfold : runGenerator g f ctx s = (attempt (runFrame f) >>= ended g) ctx s := by
    refine congrFun (congrFun (congrArg (attempt (runFrame f) >>= ·) (funext fun outcome => ?_)) ctx) s
    rcases outcome with e | ⟨exit, f'⟩
    · rfl
    · cases exit <;> rfl
  rw [hunfold, run_bind, attempt_run, runFrame, if_neg (Nat.not_le.mpr hdepth)]
  cases runSteps ctx ctx.fuel ⟨f, s.enter⟩ <;> rfl

/-- What a call on a generator comes to, by how its frame was run: the generator is suspended again
or stays exhausted, and it is not marked as running any more. -/
def concluded (g : Nat) (ctx : Context) (r : EStateM.Result Fault Activation Exit) :
    EStateM.Result Fault Store Value :=
  match (match r with
    | .ok exit a => ended g (.ok (exit, a.frame)) ctx a.store.leave
    | .error e a => ended g (.error e) ctx a.store.leave) with
  | .ok v s => .ok v (s.onGenerator g (mark false))
  | .error e s => .error e (s.onGenerator g (mark false))

/-- The record of a generator while the frame runs that it was suspended with. -/
def takenUp (x : Generator) : Generator :=
  { x with progress := .exhausted, lookahead := none, running := true }

/-- **A throw into a suspended generator** runs its frame, given the exception. -/
theorem throwInto_suspended (hmade : makeException v (context c d (k + 2)) s = .ok e t)
    (hrow : t.generators.rows[g]? = some x) (hidle : x.running = false)
    (hsuspended : x.progress = .suspended saved) (hdepth : t.depth < maxDepth) :
    throwInto g v (context c d (k + 2)) s = concluded g (context c d (k + 1))
      (runSteps (context c d (k + 1)) k
        ⟨saved.resume (.throw e), (t.onGenerator g takenUp).enter⟩) := by
  have hdropped := Store.onGenerator_row hrow (keep none ∘ mark true)
  have hprogress : ((keep none ∘ mark true) x).progress = .suspended saved := hsuspended
  have hresume : (context c d (k + 2)).resume g (.throw e) (t.onGenerator g (keep none ∘ mark true))
      = runGenerator g (saved.resume (.throw e)) (context c d (k + 1))
        (t.onGenerator g takenUp) := by
    show resumeFrame g (.throw e) (context c d (k + 1)) _ = _
    rw [resumeFrame_run, Table.get_of_row hdropped, hprogress, Store.onGenerator_onGenerator]
    rfl
  have hran := runGenerator_run (g := g) (s := t.onGenerator g takenUp) (saved.resume (.throw e))
    (context c d (k + 1)) hdepth
  rw [throwInto_run hmade hrow hidle, hresume, hran]
  rfl

/-- Making an exception leaves closure cells alone, and runs no frame. -/
theorem makeException_keeps (h : makeException v ctx s = .ok e t) :
    t.cells = s.cells ∧ t.depth = s.depth := by
  cases v with
  | exception ref type =>
    cases h
    exact ⟨rfl, rfl⟩
  | classObject u =>
    have hrun : makeException (.classObject u) ctx s = (if ctx.compiler.model.isException u then
        newException u [] else makeException.refuse : Action Raised) ctx s := rfl
    rw [hrun] at h
    split at h
    · cases h
      exact ⟨rfl, rfl⟩
    · cases h
  | _ => cases h

end Call

/-! ## 4. The run of the frame -/

theorem noted_keeps (step : Step) (name : String) (pc : Nat) (e : Raised) (s : Store) :
    (noted step name pc e s).cells = s.cells
      ∧ (noted step name pc e s).generators = s.generators := by
  unfold noted
  cases step.op <;> exact ⟨rfl, rfl⟩

/-- What comes back of a frame that yielded: the stack, the exception that it handles, and the
variables that are live. -/
theorem resumed_frame (hb : b.Accepted ty) (hp : p.Of ty b) (hf : f.Fitting b p)
    (hs : f.Suspending b) {saved : SavedFrame} (hsaved : f.suspend? = .ok saved) (r : Resumption) :
    (saved.resume r).Fitting b p ∧ (saved.resume r).Waiting b
      ∧ (saved.resume r).state = f.state ∧ (saved.resume r).stack = f.stack
      ∧ (saved.resume r).cells = f.cells ∧ (saved.resume r).handled = f.handled
      ∧ ∀ y, b.Needs (f.pc + 1) y → (saved.resume r).locals[y]? = f.locals[y]? := by
  obtain ⟨j, hj, hop⟩ := hs.resumed
  have hgen : b.code.isGenerator = true := by
    by_contra hplain
    have hnone := (hb.ordinary_of_plain (Bool.eq_false_iff.mpr hplain) j hj).1
    rw [hop] at hnone
    cases hnone
  obtain ⟨saved', hsaved', hwaits⟩ := suspend_waiting hb hp hgen hf hj hop hs.live hs.depth
  rw [hsaved] at hsaved'
  cases hsaved'
  obtain ⟨kept, hagain, -, hkept⟩ := again_eq hb hp hgen hf.program hf.locals hj hop hsaved false r
  have hlocals : (saved.resume r).locals = kept := congrArg Frame.locals hagain
  obtain ⟨live, -, hfields⟩ := suspend_eq_ok hsaved
  refine ⟨(hwaits r).1, (hwaits r).2, ?_, ?_, ?_, ?_, fun y hy => hlocals ▸ hkept y hy⟩
  all_goals
    rw [hfields]
    rfl

/-- The exception that is caught at an offset finds its handler on the stack of the offset. -/
theorem caught_region (hb : b.Accepted ty) (hp : p.Of ty b) {o : Nat} {i : Instr}
    (hi : b.instrs[o]? = some i) (hmay : i.op.mayRaise = true)
    (hlive : (b.analysis.state o).dead = false) :
    match Caught.find? (b.analysis.state o).blocks with
    | some caught => ∃ region, Region.find? p.regions o = some region
      ∧ region.aim = caught.aim ∧ caught.level ≤ (b.analysis.state o).depth
      ∧ ∀ y, b.Needs caught.handler y → b.Needs o y
    | none => Region.find? p.regions o = none := by
  have haim := Region.aim_find?_table b.instrs b.analysis o
  rw [hlive, if_neg Bool.false_ne_true, ← hb.regions, ← hp.regions] at haim
  have hcaught := Caught.find?_aim (b.analysis.state o)
  cases hfind : Caught.find? (b.analysis.state o).blocks with
  | none =>
    rw [hfind] at hcaught
    rw [← hcaught] at haim
    exact Option.map_eq_none_iff.mp haim
  | some caught =>
    rw [hfind, Option.map_some] at hcaught
    rw [← hcaught] at haim
    obtain ⟨region, hregion, haim⟩ := Option.map_eq_some_iff.mp haim
    obtain ⟨u, hu, hunwind⟩ := Option.map_eq_some_iff.mp hcaught.symm
    obtain ⟨entry, hentry, -⟩ := hb.solves.exception o i u hi hlive hmay hu
    obtain ⟨u', hu', -, hlevel, -⟩ := AbstractState.exceptionState?_eq_ok hentry
    obtain rfl : u = u' := Option.some.inj (hu.symm.trans hu')
    simp only [Unwind.aim, Caught.aim, Prod.mk.injEq] at hunwind
    refine ⟨region, hregion, haim, hunwind.2.1 ▸ hlevel, fun y hy => ?_⟩
    rw [← hunwind.1] at hy
    exact hb.needs_of_handler hi hlive hmay hu hy

/-- The start of a handler says the same of frames that differ in their variables only. -/
theorem StartsHandler.of_frame {handler level : Nat} {restoreAt : Option Nat} {e : Raised}
    {f' : Frame} (h : StartsHandler handler level restoreAt e f' a) (hprogram : f'.program = f.program)
    (hstack : f'.stack = f.stack) (hcells : f'.cells = f.cells) (hhandled : f'.handled = f.handled) :
    StartsHandler handler level restoreAt e f a where
  pc := h.pc
  stack := by
    rw [← hstack, ← hhandled]
    exact h.stack
  handled := h.handled
  program := h.program.trans hprogram
  cells := h.cells.trans hcells

/-- **A fault at an instruction** that may raise: inside a protected block the frame goes on at the
handler, and else the exception leaves it. -/
theorem goOn_routed (hb : b.Accepted ty) (hp : p.Of ty b) (hprogram : f.program = p) {i : Instr}
    (hi : b.instrs[f.pc]? = some i) (hmay : i.op.mayRaise = true)
    (hlive : (b.analysis.state f.pc).dead = false)
    (hlevel : ∀ caught, Caught.find? (b.analysis.state f.pc).blocks = some caught →
      caught.level ≤ f.stack.length)
    {fault : Fault} {e : Raised} {s₁ : Store} (hfault : catchable fault ctx s = .ok e s₁)
    (step : Step) (n : Nat) :
    match Caught.find? (b.analysis.state f.pc).blocks with
    | some caught => ∃ a, goOn ctx n (routeFault step f.pc fault ctx ⟨f, s⟩) = runSteps ctx n a
        ∧ StartsHandler caught.handler caught.level caught.restoreAt e f a
        ∧ a.store.cells = s₁.cells ∧ a.frame.locals = f.locals
    | none => ∃ a, goOn ctx n (routeFault step f.pc fault ctx ⟨f, s⟩) = .error (.raised e) a
        ∧ a.store.generators = s₁.generators := by
  have hregion := caught_region hb hp hi hmay hlive
  obtain ⟨hkept, hgenerators⟩ := noted_keeps step f.program.name f.pc e s₁
  rw [routeFault_noted hfault]
  cases hfind : Caught.find? (b.analysis.state f.pc).blocks with
  | none =>
    rw [hfind] at hregion
    rw [unwind_uncaught (by rw [hprogram]; exact hregion)]
    exact ⟨_, rfl, hgenerators⟩
  | some caught =>
    rw [hfind] at hregion
    obtain ⟨region, hregion, haim, -, -⟩ := hregion
    simp only [Region.aim, Caught.aim, Prod.mk.injEq] at haim
    obtain ⟨hhandler, hcut, hrestore⟩ := haim
    obtain ⟨before, now, k, hbefore, hnow, hunwind⟩ := unwind_caught
      (by rw [hprogram]; exact hregion) (by rw [hcut]; exact hlevel caught hfind) e ctx
      (noted step f.program.name f.pc e s₁)
    rw [hunwind]
    rw [hrestore] at hbefore
    refine ⟨_, rfl, ⟨hhandler, ⟨before, now, ?_, hbefore.withIdents k, hnow.withIdents k⟩,
      rfl, rfl, rfl⟩, hkept, rfl⟩
    dsimp only
    rw [List.reverse_append, List.reverse_append, reverse_cut, hcut, List.append_assoc]

/-- **A suspended frame that comes back with an exception**: inside a protected block it goes on at
the handler, and else the exception leaves it. -/
theorem runSteps_thrown (hb : b.Accepted ty) (hp : p.Of ty b) (hf : f.Fitting b p)
    (hs : f.Suspending b) {saved : SavedFrame} (hsaved : f.suspend? = .ok saved) (e : Raised)
    (ctx : Context) (n : Nat) (s : Store) :
    match Caught.find? (b.analysis.state f.pc).blocks with
    | some caught => caught.level ≤ f.stack.length
      ∧ ∃ a, runSteps ctx (n + 2) ⟨saved.resume (.throw e), s⟩ = runSteps ctx n a
        ∧ StartsHandler caught.handler caught.level caught.restoreAt e f a
        ∧ a.store.cells = s.cells
        ∧ ∀ y, b.Needs (f.pc + 1) y ∨ b.Needs caught.handler y →
          a.frame.locals[y]? = f.locals[y]?
    | none => ∃ a, runSteps ctx (n + 2) ⟨saved.resume (.throw e), s⟩ = .error (.raised e) a
      ∧ a.store.generators = s.generators := by
  obtain ⟨hfit, hwait, hstate, hstack, hcells, hhandled, hlocals⟩ :=
    resumed_frame hb hp hf hs hsaved (.throw e)
  obtain ⟨j, hj, hop⟩ := hs.resumed
  obtain ⟨hfirst, step, hsecond⟩ := stepOnce_thrown hb hp hfit hwait rfl hj
    (by rw [hop, hstate]) hs.live ctx s
  have hregion := caught_region hb hp hj (by rw [hop]; rfl) hs.live
  have hprogram : (saved.resume (.throw e)).program = p := hfit.program
  have hrun : runSteps ctx (n + 2) ⟨saved.resume (.throw e), s⟩
      = goOn ctx n (routeFault step (f.pc + 1) (.raised e) ctx
        ⟨{ saved.resume (.throw e) with pc := f.pc + 1, resumption := none }, s⟩) := by
    rw [runSteps_succ, hfirst, goOn, runSteps_succ, hsecond]
  have hrouted := goOn_routed (f := { saved.resume (.throw e) with
      pc := f.pc + 1, resumption := none }) hb hp hprogram hj (by rw [hop]; rfl) hs.live
    (fun caught hfind => ?level) (show catchable (.raised e) ctx s = .ok e s from rfl) step n
  rw [hrun]
  dsimp only at hrouted
  rw [hs.blocks] at hregion hrouted
  cases hfind : Caught.find? (b.analysis.state f.pc).blocks with
  | none =>
    rw [hfind] at hrouted
    exact hrouted
  | some caught =>
    rw [hfind] at hregion hrouted
    obtain ⟨-, -, -, hlevel, hneeds⟩ := hregion
    obtain ⟨a, hran, hstarts, hkept, hsame⟩ := hrouted
    exact ⟨hs.depth ▸ hlevel, a, hran,
      hstarts.of_frame (hprogram.trans hf.program.symm) hstack hcells hhandled, hkept,
      fun y hy => hsame ▸ hlocals y (hy.elim id (hneeds y))⟩
  case level =>
    dsimp only at hfind ⊢
    rw [hfind] at hregion
    obtain ⟨-, -, -, hlevel, -⟩ := hregion
    rw [hstack, hs.depth]
    exact hlevel

/-! ## 5. The theorem -/

/-- An exception that leaves the frame of a generator is the outcome of the call, but the end of an
iteration is another exception. The generator stays as it is. -/
theorem concluded_raised (g : Nat) (ctx : Context) (e : Raised) (a : Activation) {x : Generator}
    (hrow : a.store.generators.rows[g]? = some x) :
    ∃ e' t, concluded g ctx (.error (.raised e) a) = .error (.raised e') t
      ∧ t.generators.rows[g]? = some { x with running := false }
      ∧ if isStopIteration ctx.compiler.model (.raised e) then
          e'.type = TypeId.runtimeError ∧ ∃ id, (t.exceptions.get e'.ref).args
            = [.str id "generator raised StopIteration"]
        else e' = e := by
  have hended : ended g (.error (.raised e)) ctx a.store.leave
      = (if isStopIteration ctx.compiler.model (.raised e) then
          raiseText TypeId.runtimeError "generator raised StopIteration"
        else throw (.raised e) : Action Value) ctx a.store.leave := rfl
  cases hstop : isStopIteration ctx.compiler.model (.raised e) with
  | true =>
    let message := a.store.leave.newStr "generator raised StopIteration"
    let made := message.2.newException TypeId.runtimeError
      (ctx.compiler.model.name TypeId.runtimeError) [message.1]
    refine ⟨made.1, made.2.onGenerator g (mark false), ?_, Store.onGenerator_row hrow (mark false),
      rfl, .made a.store.idents, ?_⟩
    · simp only [concluded, hended, hstop, if_true]
      rfl
    · exact congrArg ExceptionObject.args (Table.get_of_row Array.getElem?_push_size)
  | false =>
    refine ⟨e, a.store.leave.onGenerator g (mark false), ?_,
      Store.onGenerator_row hrow (mark false), rfl⟩
    simp only [concluded, hended, hstop, Bool.false_eq_true, if_false]
    rfl

/-- **An exception that is thrown into a suspended generator reaches the right handler.** Whatever
frame of a compiled generator has yielded, and was saved for a generator that does not run:

* if a protected block is open at the suspension, the stack holds the values below its level, and the
  frame goes on at the handler of the innermost such block, with these values, the exception in force
  and the new one on its stack. The cells are the same, and so are the local variables that are live
  at the suspension or at the handler;
* if none is, the exception leaves the generator, which is exhausted; the end of an iteration leaves
  it as an exception of its own. -/
theorem throw_reaches_handler {c : Compiler} {code : CodeObject} {sig : CallSignature}
    (hb : c.analyze code sig = .ok b) (hp : c.emit b Program.emitter none = .ok p)
    -- the generator is suspended
    {ctx : Context} {m : Nat} {s₀ : Store} {w : Value} {saved : SavedFrame} (hf : Frame.Of p f)
    (hrun : runSteps ctx m ⟨f, s₀⟩ = .ok (.yields w) a) (hsaved : a.frame.suspend? = .ok saved)
    {g : Nat} {x : Generator} (hrow : s.generators.rows[g]? = some x)
    (hidle : x.running = false) (hsuspended : x.progress = .suspended saved)
    -- the exception is thrown
    (hv : raisable c.model v = true) (hdepth : s.depth < maxDepth) (d : Digest) (n : Nat) :
    ∃ e, Raises v e ∧ match Caught.find? (b.analysis.state a.frame.pc).blocks with
      | some caught => caught.level ≤ saved.stack.length
        ∧ ∃ a', throwInto g v (context c d (n + 4)) s
            = concluded g (context c d (n + 3)) (runSteps (context c d (n + 3)) n a')
          ∧ StartsHandler caught.handler caught.level caught.restoreAt e a.frame a'
          ∧ a'.store.cells = s.cells
          ∧ ∀ y, b.Needs (a.frame.pc + 1) y ∨ b.Needs caught.handler y →
            a'.frame.locals[y]? = a.frame.locals[y]?
      | none => ∃ e' t, throwInto g v (context c d (n + 4)) s = .error (.raised e') t
        ∧ t.generators.rows[g]?
          = some { x with progress := .exhausted, lookahead := none, running := false }
        ∧ if isStopIteration c.model (.raised e) then
            e'.type = TypeId.runtimeError ∧ ∃ id, (t.exceptions.get e'.ref).args
              = [.str id "generator raised StopIteration"]
          else e' = e := by
  obtain ⟨-, -, haccepted⟩ := CompiledBody.analyze_accepted hb
  have hof := Program.of_emit haccepted hp
  obtain ⟨hfit, hsuspending⟩ := runSteps_suspending haccepted hof (locked_of haccepted hof hf) hrun
  have hmade := makeException_run v (context c d (n + 4)) s
  rw [show (context c d (n + 4)).compiler = c from rfl, if_pos hv] at hmade
  obtain ⟨e, t, hmade, hraises, hsame⟩ := hmade
  obtain ⟨hcells, ht⟩ := makeException_keeps hmade
  have hrow' : t.generators.rows[g]? = some x := by rw [hsame, hrow]
  have hcall := throwInto_suspended hmade hrow' hidle hsuspended (ht ▸ hdepth)
  have hthrown := runSteps_thrown haccepted hof hfit hsuspending hsaved e (context c d (n + 3)) n
    (t.onGenerator g takenUp).enter
  refine ⟨e, hraises, ?_⟩
  rw [hcall]
  cases hfind : Caught.find? (b.analysis.state a.frame.pc).blocks with
  | some caught =>
    rw [hfind] at hthrown
    obtain ⟨hlevel, a', hran, hstarts, hkept, hlocals⟩ := hthrown
    obtain ⟨live, -, hfields⟩ := suspend_eq_ok hsaved
    have hstack : saved.stack = a.frame.stack := by rw [hfields]
    exact ⟨hstack ▸ hlevel, a', by rw [hran], hstarts, hkept.trans hcells, hlocals⟩
  | none =>
    rw [hfind] at hthrown
    obtain ⟨a', hran, hkept⟩ := hthrown
    have htaken : a'.store.generators.rows[g]? = some (takenUp x) := by
      rw [hkept]
      exact Store.onGenerator_row hrow' takenUp
    rw [hran]
    exact concluded_raised g (context c d (n + 3)) e a' htaken

/-- A generator that yields inside of `try`: `try: yield 1` and `except: pass`. -/
def yieldInTry : CodeObject :=
  { CodeObject.blank 0 "g" "g.py" with
    code := [129, 0, 122, 6, 100, 0, 86, 0, 1, 0, 87, 0, 100, 1, 83, 0, 1, 0, 1, 0, 1, 0, 89, 0,
      100, 1, 83, 0]
    constants := [.int 1, .none]
    flags := ⟨0x63⟩ }

/-- A store with a suspended generator as its only object. -/
def storeSuspended (saved : SavedFrame) : Store where
  generators := ⟨#[{
    name := saved.program.name
    nameId := default
    progress := .suspended saved
    lookahead := none
    running := false }]⟩

/-- A class of exceptions is thrown into it, and it goes on in its handler. -/
theorem throw_reaches_handler_yieldInTry : ∃ b p f, ∃ a : Activation, ∃ saved e a',
    (Compiler.ofModel .withBuiltins {}).analyze yieldInTry .dynamic = .ok b
      ∧ (Compiler.ofModel .withBuiltins {}).emit b Program.emitter none = .ok p
      ∧ Frame.Of p f ∧ a.frame.suspend? = .ok saved ∧ Raises (.classObject TypeId.valueError) e
      ∧ throwInto 0 (.classObject TypeId.valueError)
          (context (.ofModel .withBuiltins {}) Digest.standard 9) (storeSuspended saved)
        = concluded 0 (context (.ofModel .withBuiltins {}) Digest.standard 8)
          (runSteps (context (.ofModel .withBuiltins {}) Digest.standard 8) 5 a')
      ∧ a'.frame.pc = 9 ∧ a'.frame.handled = some e := by
  have hrun : ((Compiler.ofBuiltins.analyze yieldInTry .dynamic).toOption.any fun b =>
      (Compiler.ofBuiltins.emit b Program.emitter none).toOption.any fun p =>
      (answer? (newFrame p (.ofCode yieldInTry default default) #[] (plainContext 1) default)).any
        fun f => (answer? (runSteps (plainContext 1) 9 ⟨f.1, default⟩)).any fun r =>
      r.1.yielded?.any fun _ => r.2.frame.suspend?.toOption.any fun _ =>
        p.code.localCount == 0 && Caught.find? (b.analysis.state r.2.frame.pc).blocks
          == some { left := [], handler := 9, level := 0, outer := [] }
        && raisable Compiler.ofBuiltins.model (.classObject TypeId.valueError)) = true := by
    simp only [Compiler.analyze, CompiledBody.analyze, CompiledBody.build, CompiledBody.settle,
      Body.decode, InstructionStream.decode, InstructionStream.strayJump?_eq]
    decide +kernel
  obtain ⟨b, hb, hrun⟩ := (Option.any_eq_true _ _).mp hrun
  obtain ⟨p, hp, hrun⟩ := (Option.any_eq_true _ _).mp hrun
  obtain ⟨⟨f, s'⟩, hf, hrun⟩ := (Option.any_eq_true _ _).mp hrun
  obtain ⟨⟨exit, a⟩, ha, hrun⟩ := (Option.any_eq_true _ _).mp hrun
  obtain ⟨w, hw, hrun⟩ := (Option.any_eq_true _ _).mp hrun
  obtain ⟨saved, hsaved, hrun⟩ := (Option.any_eq_true _ _).mp hrun
  rw [toOption_eq_some] at hb hp hsaved
  rw [answer?_eq_some] at hf ha
  rw [Exit.yielded?_eq_some] at hw
  rw [Bool.and_eq_true, Bool.and_eq_true, beq_iff_eq, beq_iff_eq] at hrun
  obtain ⟨⟨hlocals, hfind⟩, hraisable⟩ := hrun
  have hof : Frame.Of p f := .new (show (#[] : Array (Option Value)).size = _ from hlocals.symm) hf
  obtain ⟨e, hraises, h⟩ := throw_reaches_handler (s := storeSuspended saved) (g := 0)
    (v := .classObject TypeId.valueError) hb hp hof (hw ▸ ha) hsaved rfl rfl rfl
    hraisable (show 0 < 500 by decide) Digest.standard 5
  rw [hfind] at h
  obtain ⟨-, a', hcall, hstarts, -⟩ := h
  exact ⟨b, p, f, a, saved, e, a', hb, hp, hof, hsaved, hraises, hcall, hstarts.pc,
    hstarts.handled⟩

end Machine

end Stackwise
