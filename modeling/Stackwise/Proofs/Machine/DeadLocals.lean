import Stackwise.Proofs.Analysis.LiveSets
import Stackwise.Proofs.Analysis.ReachedBlocks
import Stackwise.Proofs.Machine.Lockstep
import Stackwise.Proofs.Machine.Oblivious
import Stackwise.Proofs.Machine.Ways

/-!
# Dead local variables

A generator does not notice that its dead local variables are lost when it is suspended. The search
for live variables was made on the graph of the body, so its solution covers every offset that the
analysis reached.

* `Accepted.links`, `Accepted.listed`: the graph of the body links its operations and exceptions, and
  its order lists the block of every live offset.
* `Needs`: the variables that are live at an offset. `Accepted.needs_of_used`,
  `Accepted.needs_of_handler`, `Accepted.needs_of_goesTo`: what a live offset needs.
* `operate_carried`: an instruction that is carried out with other local variables, but the same
  ones where it reads, does the same.
* `Frame.Alike`, `Frame.Twins`: local variables that do for a frame as well as its own.
* `step_twins`, `runSteps_twins`: they do so step by step, up to the next suspension.
* `suspend_alike`, `again_twins`: what outlives the suspension is the same, and the frames that come
  back are twins again, whether the dead variables are dropped or kept.
-/

namespace Stackwise

namespace CompiledBody

variable {ty : Typer} {b : CompiledBody} {i : Instr} {o t x : Nat}

/-! ## 1. The graph -/

/-- Exceptions lead from offsets of the body to handlers that it names. -/
theorem Accepted.edge_target (hb : b.Accepted ty) {h : Nat}
    (he : (o, h) ∈ b.analysis.exceptionEdges) :
    o < b.instrs.length ∧ h < b.instrs.length ∧ ∃ i ∈ b.instrs, h ∈ i.op.targets := by
  obtain ⟨hlive, i, -, -, u, hu, rfl⟩ := (hb.solves.edges o h).mp he
  obtain ⟨hlive', -, -, j, hj, ht⟩ := hb.solves.unwinds rfl rfl hlive hu
  exact ⟨hb.solves.lt hlive, hb.solves.lt hlive', j, hj,
    List.mem_append_left _ (List.mem_append_right _ (Option.mem_toList.mpr ht))⟩

theorem Accepted.links (hb : b.Accepted ty) :
    b.graph.Links b.instrs b.analysis.exceptionEdges := by
  obtain ⟨g, hbuild, hgraph⟩ := hb.graph
  rw [hgraph]
  refine FlowGraph.links_of_build hbuild fun o h he => ?_
  obtain ⟨ho, hh, -⟩ := hb.edge_target he
  exact ⟨ho, hh⟩

theorem Accepted.listed (hb : b.Accepted ty) (hlive : (b.analysis.state o).dead = false) :
    b.graph.blockAt o ∈ b.graph.order :=
  hb.solves.listed hb.links hb.fits.dense hlive

/-! ## 2. Live variables -/

/-- The sets of live variables, by offset. -/
def liveIn (b : CompiledBody) : Array BitSet :=
  Liveness.liveIn b.instrs b.graph b.analysis.exceptionEdges b.code.localCount

/-- The variable `x` is live at `o`. -/
def Needs (b : CompiledBody) (o x : Nat) : Prop := Liveness.Has b.liveIn o x

theorem Accepted.sound (hb : b.Accepted ty) :
    Liveness.Sound b.instrs b.graph b.analysis.exceptionEdges b.liveIn := by
  refine Liveness.liveIn_sound b.code.localCount hb.links hb.fits.dense fun o h he => ?_
  obtain ⟨ho, hh, i, hi, ht⟩ := hb.edge_target he
  exact ⟨ho, hh, (hb.links.target i hi h ht).2⟩

theorem Accepted.needs_of_used (hb : b.Accepted ty) (hi : b.instrs[o]? = some i)
    (hlive : (b.analysis.state o).dead = false) (hx : Liveness.used? i.op = some x) :
    b.Needs o x :=
  hb.sound.used hi (hb.listed hlive) hx

theorem Accepted.needs_of_handler (hb : b.Accepted ty) (hi : b.instrs[o]? = some i)
    (hlive : (b.analysis.state o).dead = false) (hmay : i.op.mayRaise = true) {u : Unwind}
    (hu : (b.analysis.state o).unwind? = some u) (hx : b.Needs u.handler x) : b.Needs o x :=
  hb.sound.raised ((hb.solves.edges o u.handler).mpr ⟨hlive, i, hi, hmay, u, hu, rfl⟩)
    (hb.listed hlive) hx

theorem Accepted.needs_of_goesTo (hb : b.Accepted ty) (hi : b.instrs[o]? = some i)
    (hlive : (b.analysis.state o).dead = false) (hgo : i.op.GoesTo o t) (hx : b.Needs t x)
    (hdefined : Liveness.defined? i.op ≠ some x) : b.Needs o x :=
  hb.sound.goesTo hi (hb.listed hlive) hgo hx hdefined

end CompiledBody

variable {ty : Typer} {b : CompiledBody} {p : Program} {ctx : Context} {f : Frame} {s : Store}
  {ls : Array (Option Value)} {α : Type}

namespace Machine

open Liveness (used? defined?)

/-! ## 3. One instruction -/

/-- What is known of the outcome of an instruction on `f`, and of the local variables `ls'` of the
outcome with the local variables `ls`. -/
structure Carried (op : Op) (f : Frame) (ls ls' : Array (Option Value))
    (r : EStateM.Result Fault Activation Flow) : Prop where
  program : (left r).program = f.program
  pc : (left r).pc = f.pc
  size : (left r).locals.size = f.locals.size
  size' : ls'.size = ls.size
  /-- Variables that were the same stay the same. -/
  agree : ∀ x : Nat, ls[x]? = f.locals[x]? → ls'[x]? = (left r).locals[x]?
  /-- A variable that was bound is the same. -/
  bound : ∀ (x : Nat) flow a, defined? op = some x → r = .ok flow a → ls'[x]? = a.frame.locals[x]?

theorem Oblivious.carried {x : FrameAction Flow} (hx : Oblivious x) {op : Op}
    (hdefined : defined? op = none) : x ctx ⟨f.withLocals ls, s⟩ = withLocals ls (x ctx ⟨f, s⟩)
      ∧ Carried op f ls ls (x ctx ⟨f, s⟩) := by
  have hlocals := hx.blind.locals ctx ⟨f, s⟩
  obtain ⟨hprogram, hpc⟩ := hx.stays ctx ⟨f, s⟩
  refine ⟨hx.blind ctx ⟨f, s⟩ ls, hprogram, hpc, congrArg Array.size hlocals, rfl, ?_, ?_⟩
  · intro x h
    rw [hlocals]
    exact h
  · intro x flow a hsome
    rw [hdefined] at hsome
    cases hsome

theorem setLocal_eq_ok {slot : Nat} {a : Activation} (h : slot < a.frame.locals.size)
    (v : Option Value) (ctx : Context) : setLocal slot v ctx a
      = .ok () (a.withLocals (a.frame.locals.setIfInBounds slot v)) := by
  have hrun : setLocal slot v ctx a = (if slot < a.frame.locals.size then
      updateFrame fun f => { f with locals := f.locals.setIfInBounds slot v }
      else broken (.localOutOfRange slot) : FrameAction Unit) ctx a := rfl
  rw [hrun, if_pos h]
  rfl

theorem setLocal_eq_error {slot : Nat} {a : Activation} (h : ¬ slot < a.frame.locals.size)
    (v : Option Value) (ctx : Context) : setLocal slot v ctx a
      = .error (a.frame.broken (.localOutOfRange slot)) a := by
  have hrun : setLocal slot v ctx a = (if slot < a.frame.locals.size then
      updateFrame fun f => { f with locals := f.locals.setIfInBounds slot v }
      else broken (.localOutOfRange slot) : FrameAction Unit) ctx a := rfl
  rw [hrun, if_neg h]
  rfl

/-- Binding or unbinding one variable keeps the differences of the others. -/
theorem carried_set {x : FrameAction α} (hx : Oblivious x) {op : Op} (slot : Nat)
    (hdefined : ∀ y, defined? op = some y → y = slot) (g : α → Option Value)
    (hsize : ls.size = f.locals.size) {act : FrameAction Flow}
    (hact : act = (x >>= fun v => setLocal slot (g v)) >>= fun _ => pure .next) :
    ∃ ls', act ctx ⟨f.withLocals ls, s⟩ = withLocals ls' (act ctx ⟨f, s⟩)
      ∧ Carried op f ls ls' (act ctx ⟨f, s⟩) := by
  have hlocals := hx.blind.locals ctx ⟨f, s⟩
  obtain ⟨hprogram, hpc⟩ := hx.stays ctx ⟨f, s⟩
  have hblind := hx.blind ctx ⟨f, s⟩ ls
  change x ctx ⟨f.withLocals ls, s⟩ = _ at hblind
  rw [hact, run_bind, run_bind, run_bind, run_bind, hblind]
  -- a fault leaves the variables alone
  have hfault : ∀ (e : Fault) (a : Activation), a.frame.program = f.program → a.frame.pc = f.pc →
      a.frame.locals = f.locals → Carried op f ls ls (.error e a) := by
    intro e a hprogram hpc hlocals
    refine ⟨hprogram, hpc, congrArg Array.size hlocals, rfl, fun y h => ?_, fun _ _ _ _ h => ?_⟩
    · exact h.trans (congrArg (·[y]?) hlocals.symm)
    · cases h
  cases hres : x ctx ⟨f, s⟩ with
  | error e a =>
    rw [hres] at hlocals hprogram hpc
    exact ⟨ls, rfl, hfault e a hprogram hpc hlocals⟩
  | ok v a =>
    rw [hres] at hlocals hprogram hpc
    change a.frame.locals = f.locals at hlocals
    simp only [withLocals]
    by_cases hslot : slot < f.locals.size
    · have hset := setLocal_eq_ok (a := a) (by rw [hlocals]; exact hslot) (g v) ctx
      have hset' := setLocal_eq_ok (a := a.withLocals ls) (hsize ▸ hslot) (g v) ctx
      rw [hset, hset', hlocals]
      refine ⟨ls.setIfInBounds slot (g v), rfl, hprogram, hpc, Array.size_setIfInBounds,
        Array.size_setIfInBounds, fun y h => ?_, fun y flow a hy h => ?_⟩
      · change (ls.setIfInBounds slot (g v))[y]? = (f.locals.setIfInBounds slot (g v))[y]?
        rw [Array.getElem?_setIfInBounds, Array.getElem?_setIfInBounds, hsize, h]
      · cases h
        cases hdefined y hy
        change (ls.setIfInBounds slot (g v))[slot]? = (f.locals.setIfInBounds slot (g v))[slot]?
        rw [Array.getElem?_setIfInBounds, Array.getElem?_setIfInBounds, if_pos rfl, if_pos rfl,
          hsize]
    · have hset := setLocal_eq_error (a := a) (by rw [hlocals]; exact hslot) (g v) ctx
      have hset' := setLocal_eq_error (a := a.withLocals ls) (hsize ▸ hslot) (g v) ctx
      rw [hset, hset']
      exact ⟨ls, rfl, hfault _ a hprogram hpc hlocals⟩

/-- What reading a variable does with what is found in its place. -/
def fetch (found : Option (Option Value)) (slot : Nat) : FrameAction Value := do
  let f ← frame
  match found with
  | some (some v) => return v
  | some none => unboundLocal (f.program.code.varnames.getD slot "")
  | none => broken (.localOutOfRange slot)

theorem getLocal_run (slot : Nat) (ctx : Context) (a : Activation) :
    getLocal slot ctx a = fetch a.frame.locals[slot]? slot ctx a := by
  have hrun : getLocal slot ctx a = (match a.frame.locals[slot]? with
      | some (some v) => return v
      | some none => unboundLocal (a.frame.program.code.varnames.getD slot "")
      | none => broken (.localOutOfRange slot) : FrameAction Value) ctx a := rfl
  rw [hrun]
  rfl

theorem oblivious_fetch (found : Option (Option Value)) (slot : Nat) :
    Oblivious (fetch found slot) := by
  refine oblivious_frame (fun _ _ => rfl) fun f => ?_
  cases found with
  | none => exact oblivious_broken _
  | some content =>
    cases content with
    | none => exact oblivious_lift _
    | some v => exact oblivious_pure v

/-- **An instruction does the same with other local variables**, where it reads the same ones. -/
theorem operate_carried (ctx : Context) (s : Store) (op : Op) (lowering : Lowering) (hsize : ls.size = f.locals.size)
    (hused : ∀ x, used? op = some x → ls[x]? = f.locals[x]?) :
    ∃ ls', operate op lowering ctx ⟨f.withLocals ls, s⟩
        = withLocals ls' (operate op lowering ctx ⟨f, s⟩)
      ∧ Carried op f ls ls' (operate op lowering ctx ⟨f, s⟩) := by
  cases op with
  | loadFast slot =>
    have hrun : ∀ a, operate (.loadFast slot) lowering ctx a
        = ((fetch a.frame.locals[slot]? slot >>= push) >>= fun _ => pure Flow.next) ctx a := by
      intro a
      change ((getLocal slot >>= push) >>= fun _ => pure Flow.next) ctx a = _
      rw [run_bind, run_bind, run_bind, run_bind, getLocal_run]
    have hoblivious := ((oblivious_fetch f.locals[slot]? slot).bind oblivious_push).bind
      fun _ => oblivious_pure Flow.next
    rw [hrun, hrun]
    change ∃ ls', ((fetch ls[slot]? slot >>= push) >>= fun _ => pure Flow.next) ctx _ = _ ∧ _
    rw [hused slot rfl]
    exact ⟨ls, hoblivious.carried rfl⟩
  | storeFast slot =>
    refine carried_set oblivious_pop slot (fun y hy => ?_) some hsize rfl
    cases hy
    rfl
  | deleteFast slot =>
    have hrun : ∀ a, operate (.deleteFast slot) lowering ctx a
        = ((fetch a.frame.locals[slot]? slot >>= fun _ => setLocal slot none)
          >>= fun _ => pure Flow.next) ctx a := by
      intro a
      change ((getLocal slot >>= fun _ => setLocal slot none) >>= fun _ => pure Flow.next) ctx a = _
      rw [run_bind, run_bind, run_bind, run_bind, getLocal_run]
    rw [hrun, hrun]
    change ∃ ls', ((fetch ls[slot]? slot >>= fun _ => setLocal slot none)
      >>= fun _ => pure Flow.next) ctx _ = _ ∧ _
    rw [hused slot rfl]
    refine carried_set (oblivious_fetch _ slot) slot (fun y hy => ?_) (fun _ => none) hsize rfl
    cases hy
  | _ =>
    refine ⟨ls, ?_⟩
    exact Oblivious.carried (operate_oblivious rfl rfl lowering) rfl

/-! ## 4. One step -/

end Machine

namespace Frame

/-- Where the frame goes on: at its offset or, resumed and still before the dispatcher, at the resume
point of its state. -/
def GoesOnAt (b : CompiledBody) (f : Frame) (o : Nat) : Prop :=
  o = f.pc ∨ f.pc = 0 ∧ ∃ j, b.instrs[o]? = some j ∧ j.op = .resumePoint f.state

/-- The local variables `ls` do for a frame of the program as well as its own: those that are live
where it goes on are the same. -/
structure Twins (b : CompiledBody) (p : Program) (f : Frame) (ls : Array (Option Value)) :
    Prop where
  program : f.program = p
  size : f.locals.size = b.code.localCount
  size' : ls.size = b.code.localCount
  agree : ∃ o, f.GoesOnAt b o ∧ ∀ x, b.Needs o x → ls[x]? = f.locals[x]?

/-- The local variables `ls` do for a frame that has just yielded: those that are live at its resume
point are the same. -/
structure Paused (b : CompiledBody) (p : Program) (f : Frame) (ls : Array (Option Value)) :
    Prop where
  program : f.program = p
  size : f.locals.size = b.code.localCount
  size' : ls.size = b.code.localCount
  agree : ∃ o j, b.instrs[o]? = some j ∧ j.op = .resumePoint f.state
    ∧ ∀ x, b.Needs o x → ls[x]? = f.locals[x]?

/-- The local variables `ls` do for the frame that a step leaves. -/
def twinned (b : CompiledBody) (p : Program) (ls : Array (Option Value)) :
    EStateM.Result Fault Activation (Option Exit) → Prop
  | .ok none a => a.frame.Twins b p ls
  | .ok (some (.yields _)) a => a.frame.Paused b p ls
  | _ => True

end Frame

namespace Machine

open Liveness (defined?)

theorem isForcedJump_of_suspension {op : Op} {k : Nat} (h : op.suspension? = some k) :
    op.isForcedJump = false := by
  cases op <;> first | rfl | cases h

theorem stepOnce_none (hnone : f.program.step? f.pc = none) :
    stepOnce ctx ⟨f, s⟩ = .error (f.broken .noInstruction) ⟨f, s⟩ := by
  rw [stepOnce_unfold, hnone]
  rfl

/-- A fault that no handler sees leaves the frame. -/
theorem routeFault_fatal {step : Step} {pc : Nat} {e : Fault} (he : e.Fatal) (ctx : Context)
    (a : Activation) : routeFault step pc e ctx a = .error e a := by
  unfold routeFault
  rw [run_bind]
  have hcatch : (liftM (catchable e) : FrameAction Raised) ctx a = .error e a := by
    change inFrame (catchable e) ctx a = _
    rw [inFrame, he]
  rw [hcatch]

/-- What a handler needs was needed by the instruction that raised. -/
theorem routeFault_twinned (hb : b.Accepted ty) (hp : p.Of ty b) {i : Instr} {step : Step}
    {o : Nat} {e : Fault} {a : Activation} (hi : b.instrs[o]? = some i)
    (hlive : (b.analysis.state o).dead = false) (hmay : i.op.mayRaise = true ∨ e.Fatal)
    (hprogram : a.frame.program = p) (hpc : a.frame.pc = o)
    (hsize : a.frame.locals.size = b.code.localCount) (hsize' : ls.size = b.code.localCount)
    (hagree : ∀ x, b.Needs o x → ls[x]? = a.frame.locals[x]?) :
    Frame.twinned b p ls (routeFault step o e ctx a) := by
  rcases hmay with hmay | hfatal
  · have hrouted : Footing.routed Tolerance.all a.frame.footing (· = none)
        (routeFault step o e ctx a) :=
      routeFault_outcome (Tolerance.all_context ctx) trivial rfl (Tolerance.all_store a.store)
    have hlocals := (routeFault_blind step o e).locals ctx a
    cases hres : routeFault step o e ctx a with
    | error e a' => trivial
    | ok v a' =>
      rw [hres] at hrouted hlocals
      change a'.frame.locals = a.frame.locals at hlocals
      obtain ⟨rfl, -, region, hfind, hfoot, -⟩ := hrouted
      change Region.find? a.frame.program.regions a.frame.pc = some region at hfind
      rw [hprogram, hpc] at hfind
      obtain ⟨u, hu, haim⟩ := unwind?_of_find hb hp hlive hfind
      simp only [Unwind.aim, Region.aim, Prod.mk.injEq] at haim
      have hpc' : a'.frame.pc = u.handler := (congrArg Footing.pc hfoot).trans haim.1.symm
      refine ⟨(congrArg Footing.program hfoot).trans hprogram, hlocals ▸ hsize, hsize', a'.frame.pc,
        .inl rfl, fun x hx => ?_⟩
      rw [hlocals]
      exact hagree x (hb.needs_of_handler hi hlive hmay hu (hpc' ▸ hx))
  · rw [routeFault_fatal hfatal]
    trivial

/-- An instruction of a generator that may not raise ends in no fault that a handler sees. -/
theorem raises_or_fatal (hb : b.Accepted ty) (hgen : b.code.isGenerator = true)
    (hlist : ∀ i ∈ b.instrs, i.op ≠ .listToTuple) {i : Instr} {o : Nat} (hi : b.instrs[o]? = some i)
    (hlive : (b.analysis.state o).dead = false) {a a' : Activation} {e : Fault}
    (h : operate i.op (i.op.lowering ty (b.analysis.state o) b.returnType) ctx a = .error e a') :
    i.op.mayRaise = true ∨ e.Fatal := by
  cases hmay : i.op.mayRaise with
  | true => exact .inl rfl
  | false =>
    refine .inr (operate_quiet hmay (hlist i (List.mem_of_getElem? hi)) (fun hop hchecked => ?_)
      ctx a e a' h)
    -- a generator gives its value back as it is, and there is one
    have hreturn : b.returnType = TypeId.object := by
      rw [CompiledBody.returnType, hb.generator, if_pos hgen]
      rfl
    obtain ⟨ws, hm, -⟩ := hb.solves.moves hi hlive
    rw [hop, AbstractState.depth] at hm
    rw [hop, hreturn, Op.lowering, Op.returnChecked, Lowering.return_.injEq] at hchecked
    cases hstack : (b.analysis.state o).stack with
    | nil =>
      rw [hstack] at hm
      cases hm
    | cons v rest =>
      rw [hstack] at hchecked
      cases hchecked

/-- **A step keeps twins.** -/
theorem step_twins (ctx : Context) (s : Store) (hb : b.Accepted ty) (hp : p.Of ty b) (hgen : b.code.isGenerator = true)
    (hlist : ∀ i ∈ b.instrs, i.op ≠ .listToTuple) (h : f.Twins b p ls) :
    ∃ ls', stepOnce ctx ⟨f.withLocals ls, s⟩ = withLocals ls' (stepOnce ctx ⟨f, s⟩)
      ∧ Frame.twinned b p ls' (stepOnce ctx ⟨f, s⟩) := by
  obtain ⟨o, hat, hagree⟩ := h.agree
  cases hlive : (b.analysis.state f.pc).dead with
  | true =>
    have hnone : f.program.step? f.pc = none := by
      refine Option.eq_none_iff_forall_ne_some.mpr fun st hst => ?_
      rw [h.program, hp.step] at hst
      obtain ⟨i, -, hlive', -⟩ := hst
      rw [hlive] at hlive'
      cases hlive'
    rw [stepOnce_none hnone, stepOnce_none (f := f.withLocals ls) hnone]
    exact ⟨ls, rfl, trivial⟩
  | false =>
    obtain ⟨i, hi, hstep⟩ := step?_of_live hb hp hlive
    rw [← h.program] at hstep
    rw [stepOnce_run hstep, stepOnce_run (f := f.withLocals ls) hstep, execute_eq_operate]
    rcases hat with rfl | ⟨hzero, j, hj, hop⟩
    · obtain ⟨ls', heq, hcarried⟩ := operate_carried ctx s i.op
        (i.op.lowering ty (b.analysis.state f.pc) b.returnType) (h.size'.trans h.size.symm)
        fun x hx => hagree x (hb.needs_of_used hi hlive hx)
      have hsize' := hcarried.size'.trans h.size'
      rw [heq]
      cases hres : operate i.op (i.op.lowering ty (b.analysis.state f.pc) b.returnType) ctx
          ⟨f, s⟩ with
      | error e a =>
        rw [hres] at hcarried
        refine ⟨ls', routeFault_blind _ _ e ctx a ls', routeFault_twinned hb hp hi hlive
          (raises_or_fatal hb hgen hlist hi hlive hres)
          (hcarried.program.trans h.program) hcarried.pc (hcarried.size.trans h.size) hsize'
          fun x hx => hcarried.agree x (hagree x hx)⟩
      | ok flow a =>
        rw [hres] at hcarried
        have hprogram : a.frame.program = p := hcarried.program.trans h.program
        have hsize : a.frame.locals.size = b.code.localCount := hcarried.size.trans h.size
        have hway := operate_ways f.pc hres
        have hbehind : ∀ t, i.op.GoesTo f.pc t → ∀ x, b.Needs t x →
            ls'[x]? = a.frame.locals[x]? := by
          intro t hgo x hx
          by_cases hdefined : defined? i.op = some x
          · exact hcarried.bound x flow a hdefined rfl
          · exact hcarried.agree x (hagree x (hb.needs_of_goesTo hi hlive hgo hx hdefined))
        cases flow with
        | next => exact ⟨ls', rfl, hprogram, hsize, hsize', f.pc + 1, .inl rfl, hbehind _ hway⟩
        | jump t => exact ⟨ls', rfl, hprogram, hsize, hsize', t, .inl rfl, hbehind _ hway⟩
        | leave v => exact ⟨ls', rfl, trivial⟩
        | yields v =>
          obtain ⟨j, hj, hop⟩ := (hb.machine hgen).resumed hi hway
          exact ⟨ls', rfl, hprogram, hsize, hsize', f.pc + 1, j, hj, hop,
            hbehind _ (.inl ⟨isForcedJump_of_suspension hway, rfl⟩)⟩
    · -- the dispatcher goes straight to the resume point
      have hm := hb.machine hgen
      obtain ⟨hne, hlookup⟩ := hm.lookup_resumePoints hb.fits.dense hj hop
      obtain ⟨i', hi', hdispatch⟩ := hm.dispatcher
      rw [hzero] at hi
      obtain rfl : i' = i := Option.some.inj (hi'.symm.trans hi)
      have hrun : ∀ f' : Frame, f'.state = f.state → operate i'.op (i'.op.lowering ty
          (b.analysis.state f.pc) b.returnType) ctx ⟨f', s⟩ = .ok (.jump o) ⟨f', s⟩ := by
        intro f' hstate
        rw [hdispatch]
        refine (dispatch_run _ ctx f' s).trans ?_
        rw [hstate, if_neg hne, hlookup]
      rw [hrun f rfl, hrun (f.withLocals ls) rfl]
      exact ⟨ls, rfl, h.program, h.size, h.size', o, .inl rfl, hagree⟩

/-- **A run keeps twins**: it ends alike, and a frame that yields is paused with what it needs. -/
theorem runSteps_twins (ctx : Context) (s : Store) (hb : b.Accepted ty) (hp : p.Of ty b) (hgen : b.code.isGenerator = true)
    (hlist : ∀ i ∈ b.instrs, i.op ≠ .listToTuple) (n : Nat) (h : f.Twins b p ls) :
    ∃ ls', runSteps ctx n ⟨f.withLocals ls, s⟩ = withLocals ls' (runSteps ctx n ⟨f, s⟩)
      ∧ ∀ v a, runSteps ctx n ⟨f, s⟩ = .ok (.yields v) a → a.frame.Paused b p ls' := by
  induction n generalizing f s ls with
  | zero => exact ⟨ls, rfl, fun _ _ h => by cases h⟩
  | succ n ih =>
    obtain ⟨ls', heq, htwins⟩ := step_twins ctx s hb hp hgen hlist h
    rw [runSteps, runSteps, heq]
    cases hres : stepOnce ctx ⟨f, s⟩ with
    | error e a => exact ⟨ls', rfl, fun _ _ h => by cases h⟩
    | ok exit a =>
      rw [hres] at htwins
      cases exit with
      | none => exact ih _ htwins
      | some exit =>
        refine ⟨ls', rfl, fun v a' h => ?_⟩
        cases h
        exact htwins

/-! ## 5. Suspension and resumption -/

/-- The variables that outlive the suspension are those that are live at the resume point. -/
theorem mem_layout (hb : b.Accepted ty) (hp : p.Of ty b) (hgen : b.code.isGenerator = true)
    (hprogram : f.program = p) {o : Nat} {j : Instr} (hj : b.instrs[o]? = some j)
    (hop : j.op = .resumePoint f.state) {live : List Nat} (h : f.layout? = .ok live) (x : Nat) :
    x ∈ live ↔ b.Needs o x := by
  have hlayout : f.program.generator
      = some (.describe b.instrs b.graph b.analysis b.code.localCount) := by
    rw [hprogram, hp.generator, hb.generator, if_pos hgen]
  obtain ⟨sus, hsus, -, hlive⟩ := GeneratorLayout.describe_state? b.graph b.analysis
    b.code.localCount (hb.machine hgen) hj hop
  unfold Frame.layout? at h
  rw [hlayout] at h
  dsimp only at h
  rw [hsus] at h
  dsimp only at h
  split at h
  · cases h
    rw [hlive]
    exact BitSet.mem_toList
  · cases h

theorem suspend_eq_ok {saved : SavedFrame} (h : f.suspend? = .ok saved) : ∃ live,
    f.layout? = .ok live ∧ saved = ⟨f.program, f.state,
      live.filterMap fun slot => (f.locals[slot]?.join).map fun v => (slot, v), f.stack, f.cells,
      f.handled⟩ := by
  unfold Frame.suspend? at h
  cases hlayout : f.layout? with
  | error cause =>
    rw [hlayout] at h
    cases h
  | ok live =>
    rw [hlayout] at h
    cases h
    exact ⟨live, rfl, rfl⟩

/-- **Twins leave the same behind** when they are suspended. -/
theorem suspend_alike (hb : b.Accepted ty) (hp : p.Of ty b) (hgen : b.code.isGenerator = true)
    (h : f.Paused b p ls) : (f.withLocals ls).suspend? = f.suspend? := by
  obtain ⟨o, j, hj, hop, hagree⟩ := h.agree
  unfold Frame.suspend?
  rw [show (f.withLocals ls).layout? = f.layout? from rfl]
  cases hlayout : f.layout? with
  | error cause => rfl
  | ok live =>
    have hkept : (live.filterMap fun slot => (ls[slot]?.join).map fun v => (slot, v))
        = live.filterMap fun slot => (f.locals[slot]?.join).map fun v => (slot, v) :=
      List.filterMap_congr fun x hx => by
        rw [hagree x ((mem_layout hb hp hgen h.program hj hop hlayout x).mp hx)]
    dsimp only
    rw [Frame.withLocals_locals, hkept]
    rfl

/-- What the variables hold after those that were saved are put back. -/
theorem getElem?_restored (saved : Nat → Option Value) (live : List Nat)
    (ls : Array (Option Value)) (x : Nat) :
    ((live.filterMap fun slot => (saved slot).map fun v => (slot, v)).foldl
      (fun locals (slot, v) => locals.setIfInBounds slot (some v)) ls)[x]?
      = if x ∈ live ∧ (saved x).isSome ∧ x < ls.size then some (saved x) else ls[x]? := by
  induction live generalizing ls with
  | nil => simp
  | cons y live ih =>
    rw [List.filterMap_cons]
    cases hy : saved y with
    | none =>
      rw [Option.map_none, ih]
      by_cases hxy : x = y
      · subst hxy
        simp [hy]
      · simp [hxy]
    | some v =>
      rw [Option.map_some, List.foldl_cons, ih, Array.size_setIfInBounds,
        Array.getElem?_setIfInBounds]
      by_cases hxy : x = y
      · subst hxy
        by_cases hx : x < ls.size
        · simp [hy, hx]
        · simp [hx]
      · simp [hxy, Ne.symm hxy]

end Machine

/-- How the frame of a generator comes back: from what was saved of it or, `whole`, with all its
local variables. -/
def Frame.again (whole : Bool) (f : Frame) (saved : SavedFrame) (r : Resumption) : Frame :=
  if whole then { f with pc := 0, resumption := some r } else saved.resume r

namespace Machine

/-- A frame that comes back differs from the one that was suspended in dead variables at most. -/
theorem again_eq (hb : b.Accepted ty) (hp : p.Of ty b) (hgen : b.code.isGenerator = true)
    (hprogram : f.program = p) (hsize : f.locals.size = b.code.localCount) {o : Nat} {j : Instr}
    (hj : b.instrs[o]? = some j) (hop : j.op = .resumePoint f.state) {saved : SavedFrame}
    (h : f.suspend? = .ok saved) (whole : Bool) (r : Resumption) :
    ∃ kept, f.again whole saved r = (f.again true saved r).withLocals kept
      ∧ kept.size = b.code.localCount ∧ ∀ x, b.Needs o x → kept[x]? = f.locals[x]? := by
  cases whole with
  | true => exact ⟨f.locals, rfl, hsize, fun _ _ => rfl⟩
  | false =>
    obtain ⟨live, hlayout, rfl⟩ := suspend_eq_ok h
    refine ⟨_, rfl, ?_, fun x hx => ?_⟩
    · rw [← hp.code, ← hprogram]
      exact resume_locals_size _ r
    · refine (getElem?_restored (fun slot => f.locals[slot]?.join) live _ x).trans ?_
      have hlive := (mem_layout hb hp hgen hprogram hj hop hlayout x).mpr hx
      have hcount : f.program.code.localCount = f.locals.size := by
        rw [hprogram, hp.code, hsize]
      rw [Array.size_replicate, Array.getElem?_replicate, hcount]
      by_cases hlt : x < f.locals.size
      · rw [Array.getElem?_eq_getElem hlt, Option.join_some, if_pos hlt]
        cases f.locals[x] <;> simp [hlive, hlt]
      · rw [Array.getElem?_eq_none (Nat.not_lt.mp hlt), if_neg hlt, if_neg fun h => hlt h.2.2]

/-- **The frames that come back are twins**, whatever is kept of each. -/
theorem again_twins (hb : b.Accepted ty) (hp : p.Of ty b) (hgen : b.code.isGenerator = true)
    (h : f.Paused b p ls) {saved : SavedFrame} (hsaved : f.suspend? = .ok saved)
    (whole whole' : Bool) (r : Resumption) :
    ∃ ls', (f.withLocals ls).again whole' saved r = (f.again whole saved r).withLocals ls'
      ∧ (f.again whole saved r).Twins b p ls' := by
  obtain ⟨o, j, hj, hop, hagree⟩ := h.agree
  obtain ⟨kept, heq, hsize, hkept⟩ :=
    again_eq hb hp hgen h.program h.size hj hop hsaved whole r
  obtain ⟨kept', heq', hsize', hkept'⟩ := again_eq (f := f.withLocals ls) hb hp hgen h.program
    h.size' hj hop ((suspend_alike hb hp hgen h).trans hsaved) whole' r
  refine ⟨kept', ?_, ?_⟩
  · rw [heq, heq']
    rfl
  · rw [heq]
    exact ⟨h.program, hsize, hsize', o, .inr ⟨rfl, j, hj, hop⟩,
      fun x hx => (hkept' x hx).trans ((hagree x hx).trans (hkept x hx).symm)⟩

/-! ## 6. Conversations -/

/-- What is known of a run of twins: it leaves the same store and ends alike. -/
theorem runFrame_twins (ctx : Context) (s : Store) (hb : b.Accepted ty) (hp : p.Of ty b) (hgen : b.code.isGenerator = true)
    (hlist : ∀ i ∈ b.instrs, i.op ≠ .listToTuple) (h : f.Twins b p ls) :
    (∃ e s', runFrame f ctx s = .error e s' ∧ runFrame (f.withLocals ls) ctx s = .error e s')
      ∨ ∃ exit g s' ls', runFrame f ctx s = .ok (exit, g) s'
        ∧ runFrame (f.withLocals ls) ctx s = .ok (exit, g.withLocals ls') s'
        ∧ ∀ v, exit = .yields v → g.Paused b p ls' := by
  unfold runFrame
  split
  · exact .inl ⟨_, _, rfl, rfl⟩
  · obtain ⟨ls', heq, hpaused⟩ :=
      runSteps_twins ctx s.enter hb hp hgen hlist ctx.fuel h
    rw [heq]
    cases hres : runSteps ctx ctx.fuel ⟨f, s.enter⟩ with
    | error e a => exact .inl ⟨e, _, rfl, rfl⟩
    | ok exit a =>
      refine .inr ⟨exit, a.frame, _, ls', rfl, rfl, fun v hv => ?_⟩
      rw [hv] at hres
      exact hpaused v a hres

/-- **Twins resume a generator alike**, and leave the same store. -/
theorem runGenerator_twins (hb : b.Accepted ty) (hp : p.Of ty b) (hgen : b.code.isGenerator = true)
    (hlist : ∀ i ∈ b.instrs, i.op ≠ .listToTuple) (h : f.Twins b p ls) (g : Nat) :
    runGenerator g (f.withLocals ls) ctx s = runGenerator g f ctx s := by
  unfold runGenerator
  rw [run_bind, run_bind, attempt_run, attempt_run]
  rcases runFrame_twins ctx s hb hp hgen hlist h with
    ⟨e, s', hrun, hrun'⟩ | ⟨exit, g', s', ls', hrun, hrun', hpaused⟩
  · rw [hrun, hrun']
  · rw [hrun, hrun']
    cases exit with
    | returns v => rfl
    | yields v =>
      dsimp only
      rw [suspend_alike hb hp hgen (hpaused v rfl)]

end Machine

/-- What the caller of a generator does when it has yielded: it may do anything with the store, and
resumes the generator in a context of its own. -/
structure Turn where
  /-- The context of the resumption. -/
  ctx : Context
  /-- What is sent or thrown, and the store as it is then, given the value and the store. -/
  answer : Value → Store → Resumption × Store

/-- What comes of a resumption of a generator, with the store as it is then. -/
inductive Reply where
  /-- A value, and what is saved of the frame. -/
  | yields (v : Value) (saved : Except Fault SavedFrame) (s : Store)
  /-- The end. -/
  | returns (v : Value) (s : Store)
  /-- An exception, or another fault. -/
  | fails (e : Fault) (s : Store)

namespace Machine

/-- The replies of a generator whose frame is run, and resumed for each turn of its caller. Frames
come back `whole`, or from what was saved of them. -/
def replies (whole : Bool) (turns : List Turn) (f : Frame) (ctx : Context) (s : Store) :
    List Reply :=
  match runFrame f ctx s with
  | .error e s => [.fails e s]
  | .ok (.returns v, _) s => [.returns v s]
  | .ok (.yields v, f) s =>
    .yields v f.suspend? s :: match turns, f.suspend? with
      | t :: turns, .ok saved =>
        replies whole turns (f.again whole saved (t.answer v s).1) t.ctx (t.answer v s).2
      | _, _ => []

/-- Twins give the same replies. -/
theorem replies_twins (hb : b.Accepted ty) (hp : p.Of ty b) (hgen : b.code.isGenerator = true)
    (hlist : ∀ i ∈ b.instrs, i.op ≠ .listToTuple) (h : f.Twins b p ls) (whole whole' : Bool)
    (turns : List Turn) :
    replies whole' turns (f.withLocals ls) ctx s = replies whole turns f ctx s := by
  induction turns generalizing f ls ctx s with
  | nil =>
    rcases runFrame_twins ctx s hb hp hgen hlist h with
      ⟨e, s', hrun, hrun'⟩ | ⟨exit, g, s', ls', hrun, hrun', hpaused⟩
    · rw [replies, replies, hrun, hrun']
    · rw [replies, replies, hrun, hrun']
      cases exit with
      | returns v => rfl
      | yields v =>
        dsimp only
        rw [suspend_alike hb hp hgen (hpaused v rfl)]
  | cons t turns ih =>
    rcases runFrame_twins ctx s hb hp hgen hlist h with
      ⟨e, s', hrun, hrun'⟩ | ⟨exit, g, s', ls', hrun, hrun', hpaused⟩
    · rw [replies, replies, hrun, hrun']
    · rw [replies, replies, hrun, hrun']
      cases exit with
      | returns v => rfl
      | yields v =>
        dsimp only
        rw [suspend_alike hb hp hgen (hpaused v rfl)]
        cases hsaved : g.suspend? with
        | error e => rfl
        | ok saved =>
          obtain ⟨ls'', heq, htwins⟩ := again_twins hb hp hgen (hpaused v rfl) hsaved whole whole'
            (t.answer v s').1
          dsimp only
          rw [heq, ih htwins]

/-! ## 7. The theorem -/

/-- **Dead local variables do not matter to a generator.** Two frames of a compiled generator that
has no operation making a tuple of a list, at the same offset and the same but for local variables
that are dead there:

* run to the same suspension, end or exception, and leave the same store, with the same frame saved
  for the generator;
* give the same replies to every sequence of sends and throws, and save the same of their frames
  each time, even if one of them comes back from what was saved and the other with all its
  variables. -/
theorem suspension_transparent {c : Compiler} {code : CodeObject} {sig : CallSignature}
    (hb : c.analyze code sig = .ok b) (hp : c.emit b Program.emitter none = .ok p)
    (hgen : code.isGenerator = true) (hlist : ∀ i ∈ b.instrs, i.op ≠ .listToTuple)
    (hprogram : f.program = p) (hsize : f.locals.size = code.localCount)
    (hsize' : ls.size = code.localCount)
    (hagree : ∀ x, b.Needs f.pc x → ls[x]? = f.locals[x]?) :
    (∀ g ctx s, runGenerator g { f with locals := ls } ctx s = runGenerator g f ctx s)
      ∧ ∀ whole whole' turns ctx s, replies whole' turns { f with locals := ls } ctx s
        = replies whole turns f ctx s := by
  obtain ⟨hcode, -, haccepted⟩ := CompiledBody.analyze_accepted hb
  have hof := Program.of_emit haccepted hp
  rw [← hcode] at hgen hsize hsize'
  have htwins : f.Twins b p ls := ⟨hprogram, hsize, hsize', f.pc, .inl rfl, hagree⟩
  refine ⟨fun g ctx s => ?_, fun whole whole' turns ctx s =>
    replies_twins haccepted hof hgen hlist htwins whole whole' turns⟩
  exact runGenerator_twins haccepted hof hgen hlist htwins g

/-- A generator of two variables: `x = None; y = None; yield x; return y`. -/
def yieldFirst : CodeObject :=
  { CodeObject.blank 0 "g" "g.py" with
    code := [129, 0, 100, 0, 125, 0, 100, 0, 125, 1, 124, 0, 86, 0, 1, 0, 124, 1, 83, 0]
    constants := [.none]
    varnames := ["x", "y"]
    flags := ⟨0x63⟩ }

/-- Its first variable is dead when it is resumed. -/
theorem suspension_transparent_yieldFirst : ∃ b p, ∃ f : Frame,
    (Compiler.ofModel TypeModel.empty {}).analyze yieldFirst .dynamic = .ok b
      ∧ (Compiler.ofModel TypeModel.empty {}).emit b Program.emitter none = .ok p
      ∧ f.program = p ∧ f.locals = #[some .none, some .none]
      ∧ ∀ whole turns ctx s, replies whole turns { f with locals := #[none, some .none] } ctx s
        = replies false turns f ctx s := by
  let c := Compiler.ofModel TypeModel.empty {}
  have hrun : (match c.analyze yieldFirst .dynamic with
      | .error _ => false
      | .ok b => (c.emit b Program.emitter none).isOk
        && b.instrs.all (fun i => i.op != .listToTuple)
        && !(b.liveIn.getD 7 BitSet.empty).contains 0) = true := by decide +kernel
  split at hrun
  · cases hrun
  · rename_i b hb
    cases hp : c.emit b Program.emitter none with
    | error e =>
      rw [hp] at hrun
      cases hrun
    | ok p =>
      rw [hp] at hrun
      simp only [Except.isOk, Except.toBool, Bool.true_and, Bool.and_eq_true, List.all_eq_true,
        bne_iff_ne, ne_eq, Bool.not_eq_true'] at hrun
      obtain ⟨hlist, hdead⟩ := hrun
      let f : Frame := ⟨p, #[some .none, some .none], #[], [], 7, 1, none, some (.send .none)⟩
      refine ⟨b, p, f, hb, hp, rfl, rfl, fun whole turns ctx s => ?_⟩
      have hsize : (#[none, some .none] : Array (Option Value)).size = yieldFirst.localCount := rfl
      refine (suspension_transparent hb hp rfl hlist rfl rfl hsize fun x hx => ?_).2 false whole
        turns ctx s
      match x with
      | 0 =>
        rw [CompiledBody.Needs, Liveness.Has, hdead] at hx
        cases hx
      | 1 => rfl
      | x + 2 => rfl

end Machine

end Stackwise
