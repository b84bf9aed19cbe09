import Stackwise.Proofs.Analysis.Regions
import Stackwise.Proofs.Analysis.Suspensions
import Stackwise.Proofs.Compile.Programs
import Stackwise.Proofs.Machine.ArgumentBinding

/-!
# Lockstep of machine and analysis

A frame of a compiled program never leaves the offsets that the analysis reached, and has as many
values on its stack as the analysis says.

* `Frame.Running`: the frame stands at a live offset with a stack of the depth there, and has a
  resumption at resume points only.
* `Frame.Waiting`: the frame was resumed and stands before the dispatcher, with the stack of the
  resume point that it will go to.
* `step_running`, `step_waiting`: one step keeps this; a frame that yields can be suspended, and
  waits when it is resumed.
* `Frame.Of`: the frames of a program, from the first call through all suspensions.
-/

namespace Stackwise

/-! ## 1. Offsets -/

namespace CompiledBody

variable {ty : Typer} {b : CompiledBody} {i : Instr} {o t : Nat}

/-- An offset that is neither the dispatcher nor a resume point. -/
def Ordinary (b : CompiledBody) (o : Nat) : Prop :=
  ∀ j, b.instrs[o]? = some j → j.op.resumed? = none ∧ j.op.isDispatch = false

theorem Accepted.ordinary_of_plain (hb : b.Accepted ty) (hgen : b.code.isGenerator = false) :
    b.Ordinary o := by
  intro j hj
  have hplain := hb.plain hgen j (List.mem_of_getElem? hj)
  exact ⟨Op.resumed?_of_plain hplain, Op.isDispatch_of_plain hplain⟩

/-- Jumps and handlers lead to ordinary offsets. -/
theorem Accepted.ordinary_target (hb : b.Accepted ty) (hi : i ∈ b.instrs)
    (ht : i.op.branchTarget? = some t ∨ i.op.handlerTarget? = some t) : b.Ordinary t := by
  cases hgen : b.code.isGenerator with
  | false => exact hb.ordinary_of_plain hgen
  | true =>
    intro j hj
    have hm := hb.machine hgen
    obtain ⟨hpos, hnone⟩ := hm.inner i hi t ht
    exact ⟨hnone j hj, hm.not_dispatch hj hpos⟩

/-- So does going on, except after a suspension. -/
theorem Accepted.ordinary_next (hb : b.Accepted ty) (hi : b.instrs[o]? = some i)
    (hs : i.op.suspension? = none) : b.Ordinary (o + 1) := by
  cases hgen : b.code.isGenerator with
  | false => exact hb.ordinary_of_plain hgen
  | true =>
    intro j hj
    have hm := hb.machine hgen
    refine ⟨Option.eq_none_iff_forall_ne_some.mpr fun k hk => ?_,
      hm.not_dispatch hj (Nat.succ_pos o)⟩
    obtain ⟨o', i', heq, hi', hs'⟩ := hm.suspended hj hk
    obtain rfl : o = o' := Nat.succ.inj heq
    rw [hi] at hi'
    cases hi'
    rw [hs] at hs'
    cases hs'

/-- Only generators suspend. -/
theorem Accepted.generator_of_suspension (hb : b.Accepted ty) (hi : b.instrs[o]? = some i) {k : Nat}
    (hk : i.op.suspension? = some k) : b.code.isGenerator = true := by
  by_contra hgen
  have hplain := hb.plain (Bool.eq_false_iff.mpr hgen) i (List.mem_of_getElem? hi)
  rw [Op.suspension?_of_plain hplain] at hk
  cases hk

theorem Accepted.entry_not_resumed (hb : b.Accepted ty) (hi : b.instrs[0]? = some i) :
    i.op.resumed? = none := by
  cases hgen : b.code.isGenerator with
  | false => exact (hb.ordinary_of_plain hgen i hi).1
  | true =>
    refine Option.eq_none_iff_forall_ne_some.mpr fun k hk => ?_
    obtain ⟨o', -, heq, -, -⟩ := (hb.machine hgen).suspended hi hk
    cases heq

end CompiledBody

/-! ## 2. Frames -/

/-- The footing of a frame of a program, with all variables of its body. -/
structure Footing.Fitting (b : CompiledBody) (p : Program) (r : Footing) : Prop where
  program : r.program = p
  locals : r.locals = b.code.localCount
  cells : r.cells.size = b.code.closureSize

namespace Frame

/-- The frame belongs to the program of a body and has its variables. -/
def Fitting (b : CompiledBody) (p : Program) (f : Frame) : Prop := f.footing.Fitting b p

/-- The frame is where the analysis is. -/
structure Running (b : CompiledBody) (f : Frame) : Prop where
  live : (b.analysis.state f.pc).dead = false
  depth : f.stack.length = (b.analysis.state f.pc).depth
  /-- What the frame was given is taken at a resume point, and nowhere else. -/
  given : ∀ i, b.instrs[f.pc]? = some i → i.op.resumed?.isSome = f.resumption.isSome
  /-- A frame that comes to the dispatcher like this has just been made. -/
  fresh : ∀ i, b.instrs[f.pc]? = some i → i.op.isDispatch = true → f.state = 0

/-- The frame was resumed and has not yet found its resume point. -/
structure Waiting (b : CompiledBody) (f : Frame) : Prop where
  generator : b.code.isGenerator = true
  pc : f.pc = 0
  given : f.resumption.isSome = true
  saved : ∃ o i, b.instrs[o]? = some i ∧ i.op = .resumePoint f.state
    ∧ (b.analysis.state o).dead = false ∧ f.stack.length = (b.analysis.state o).depth

theorem Running.of_ordinary {b : CompiledBody} {f : Frame}
    (hlive : (b.analysis.state f.pc).dead = false)
    (hdepth : f.stack.length = (b.analysis.state f.pc).depth) (hgiven : f.resumption = none)
    (ho : b.Ordinary f.pc) : f.Running b := by
  refine ⟨hlive, hdepth, fun i hi => ?_, fun i hi hdispatch => ?_⟩
  · rw [(ho i hi).1, hgiven]
    rfl
  · rw [(ho i hi).2] at hdispatch
    cases hdispatch

/-- What is left when a frame takes a step. -/
def stepped (W : Tolerance) (b : CompiledBody) (p : Program) :
    EStateM.Result Fault Activation (Option Exit) → Prop
  | .ok none a => W.store a.store ∧ a.frame.Fitting b p ∧ a.frame.Running b
  | .ok (some (.yields _)) a => W.store a.store ∧ ∃ saved, a.frame.suspend? = .ok saved
      ∧ ∀ r, (saved.resume r).Fitting b p ∧ (saved.resume r).Waiting b
  | .ok (some (.returns _)) a => W.store a.store
  | .error e a => W.store a.store ∧ W.fault e

end Frame

/-- The frames of a program: those of its calls, and those that come back from a suspension. -/
inductive Frame.Of (p : Program) : Frame → Prop
  | new {fn : Function} {locals : Array (Option Value)} {ctx : Context} {s s' : Store} {f : Frame}
    (hlocals : locals.size = p.code.localCount) (h : Machine.newFrame p fn locals ctx s = .ok f s') :
    Of p f
  | resumed {f : Frame} {ctx : Context} {n : Nat} {s : Store} {v : Value} {a : Activation}
    {saved : SavedFrame} (hf : Of p f) (h : Machine.runSteps ctx n ⟨f, s⟩ = .ok (.yields v) a)
    (hsaved : a.frame.suspend? = .ok saved) (r : Resumption) : Of p (saved.resume r)

/-- The frame of a call with bound arguments is one. -/
theorem Frame.of_call {p : Program} {fn : Function} {args : List Value} {kwargs : List Keyword}
    {ctx : Context} {s s₁ s₂ : Store} {locals : Array (Option Value)} {f : Frame}
    (hcode : fn.code = p.code) (hbind : Machine.bind fn args kwargs ctx s = .ok locals s₁)
    (hnew : Machine.newFrame p fn locals ctx s₁ = .ok f s₂) : Frame.Of p f :=
  .new (by rw [Machine.bind_size hbind, hcode]) hnew

/-- The frame runs, or waits for its resume point. -/
def Frame.Locked (b : CompiledBody) (p : Program) (f : Frame) : Prop :=
  f.Fitting b p ∧ (f.Running b ∨ f.Waiting b)

namespace Machine

variable {W : Tolerance} {ty : Typer} {b : CompiledBody} {p : Program} {f : Frame} {ctx : Context}
  {s : Store}

/-! ## 3. Steps -/

theorem dispatch_run (states : List (Nat × Nat)) (ctx : Context) (f : Frame) (s : Store) :
    dispatch states ctx ⟨f, s⟩ = if f.state = 0 then .ok .next ⟨f, s⟩ else
      match states.lookup f.state with
      | some o => .ok (.jump o) ⟨f, s⟩
      | none => .error (f.broken (.noResumePoint f.state)) ⟨f, s⟩ := by
  have hunfold : dispatch states ctx ⟨f, s⟩ = (if f.state == 0 then return .next else
      match states.lookup f.state with
      | some o => return .jump o
      | none => broken (.noResumePoint f.state) : FrameAction Flow) ctx ⟨f, s⟩ := rfl
  rw [hunfold]
  simp only [beq_iff_eq]
  split
  · rfl
  · cases states.lookup f.state <;> rfl

/-- The instruction at a live offset. -/
theorem step?_of_live (hb : b.Accepted ty) (hp : p.Of ty b) {o : Nat}
    (hl : (b.analysis.state o).dead = false) : ∃ i, b.instrs[o]? = some i
      ∧ p.step? o = some ⟨i.op, i.op.lowering ty (b.analysis.state o) b.returnType, i.line⟩ := by
  have hi := List.getElem?_eq_getElem (hb.solves.lt hl)
  exact ⟨_, hi, (hp.step o _).mpr ⟨_, hi, hl, rfl⟩⟩

/-- The table of regions says what the blocks at a live offset say. -/
theorem unwind?_of_find (hb : b.Accepted ty) (hp : p.Of ty b) {o : Nat}
    (hl : (b.analysis.state o).dead = false) {region : Region}
    (hfind : Region.find? p.regions o = some region) :
    ∃ u, (b.analysis.state o).unwind? = some u ∧ u.aim = region.aim := by
  have haim := Region.aim_find?_table b.instrs b.analysis o
  rw [hl, if_neg Bool.false_ne_true, ← hb.regions, ← hp.regions, hfind] at haim
  exact Option.map_eq_some_iff.mp haim.symm

/-- A fault that finds a handler leaves the frame running there. -/
theorem stepped_of_routed (hb : b.Accepted ty) (hp : p.Of ty b) {r : Footing}
    (hr : r.Fitting b p) (hl : (b.analysis.state r.pc).dead = false) (hgiven : r.resumption = none)
    {res : EStateM.Result Fault Activation (Option Exit)}
    (h : Footing.routed W r (· = none) res) : Frame.stepped W b p res := by
  cases res with
  | error e a => exact h
  | ok v a =>
    obtain ⟨rfl, hs, region, hfind, hfoot, hlen⟩ := h
    rw [hr.program] at hfind
    obtain ⟨u, hu, haim⟩ := unwind?_of_find hb hp hl hfind
    simp only [Unwind.aim, Region.aim, Prod.mk.injEq] at haim
    obtain ⟨hlive, hdepth, -, i, hi, ht⟩ := hb.solves.unwinds rfl rfl hl hu
    have hpc : a.frame.pc = u.handler := (congrArg Footing.pc hfoot).trans haim.1.symm
    refine ⟨hs, ?_, Frame.Running.of_ordinary ?_ ?_ ?_ ?_⟩
    · rw [Frame.Fitting, hfoot]
      exact ⟨hr.program, hr.locals, hr.cells⟩
    · rw [hpc]
      exact hlive
    · rw [hpc, hlen, hdepth, haim.2.1]
    · exact (congrArg Footing.resumption hfoot).trans hgiven
    · rw [hpc]
      exact hb.ordinary_target hi (.inr ht)

theorem size_foldl_restore (kept : List (Nat × Value)) (locals : Array (Option Value)) :
    (kept.foldl (fun locals (slot, v) => locals.setIfInBounds slot (some v)) locals).size
      = locals.size := by
  induction kept generalizing locals with
  | nil => rfl
  | cons kv kept ih => rw [List.foldl_cons, ih, Array.size_setIfInBounds]

theorem resume_locals_size (saved : SavedFrame) (r : Resumption) :
    (saved.resume r).locals.size = saved.program.code.localCount := by
  rw [SavedFrame.resume, size_foldl_restore, Array.size_replicate]

/-- A frame that stands before a resume point with the stack of that point can be suspended, and
waits when it is resumed. -/
theorem suspend_waiting (hb : b.Accepted ty) (hp : p.Of ty b)
    (hgen : b.code.isGenerator = true) (hf : f.Fitting b p) {o : Nat} {j : Instr}
    (hj : b.instrs[o]? = some j) (hop : j.op = .resumePoint f.state)
    (hl : (b.analysis.state o).dead = false)
    (hd : f.stack.length = (b.analysis.state o).depth) :
    ∃ saved, f.suspend? = .ok saved
      ∧ ∀ r, (saved.resume r).Fitting b p ∧ (saved.resume r).Waiting b := by
  have hprogram : f.program = p := hf.program
  have hlayout : f.program.generator
      = some (.describe b.instrs b.graph b.analysis b.code.localCount) := by
    rw [hprogram, hp.generator, hb.generator, if_pos hgen]
  obtain ⟨sus, hsus, hsaved, -⟩ := GeneratorLayout.describe_state? b.graph b.analysis
    b.code.localCount (hb.machine hgen) hj hop
  have hlive : f.layout? = .ok sus.live := by
    unfold Frame.layout?
    rw [hlayout]
    dsimp only
    rw [hsus]
    dsimp only
    rw [if_pos (by rw [hsaved, hd]; exact beq_self_eq_true _)]
  unfold Frame.suspend?
  rw [hlive]
  refine ⟨_, rfl, fun r => ⟨⟨hprogram, ?_, hf.cells⟩, hgen, rfl, rfl, o, j, hj, hop, hl, hd⟩⟩
  refine (resume_locals_size _ r).trans ?_
  rw [← hp.code, ← hprogram]

theorem operate_waiting (hb : b.Accepted ty) (hw : f.Waiting b) : ∃ i states o j,
    b.instrs[f.pc]? = some i ∧ i.op = .resumeDispatch states
      ∧ b.instrs[o]? = some j ∧ j.op = .resumePoint f.state
      ∧ (b.analysis.state o).dead = false ∧ f.stack.length = (b.analysis.state o).depth
      ∧ ∀ lowering ctx s, operate i.op lowering ctx ⟨f, s⟩ = .ok (.jump o) ⟨f, s⟩ := by
  have hm := hb.machine hw.generator
  obtain ⟨o, j, hj, hop, hl, hd⟩ := hw.saved
  obtain ⟨hne, hlookup⟩ := hm.lookup_resumePoints hb.fits.dense hj hop
  obtain ⟨i, hi, hdispatch⟩ := hm.dispatcher
  refine ⟨i, _, o, j, hw.pc ▸ hi, hdispatch, hj, hop, hl, hd, fun lowering ctx s => ?_⟩
  rw [hdispatch]
  refine (dispatch_run _ ctx f s).trans ?_
  rw [if_neg hne, hlookup]

theorem waiting_live (hb : b.Accepted ty) (hw : f.Waiting b) :
    (b.analysis.state f.pc).dead = false := by
  rw [hw.pc]
  exact (hb.solves.entry rfl).1

/-- **A resumed frame goes to its resume point.** -/
theorem step_waiting (hb : b.Accepted ty) (hp : p.Of ty b) (hf : f.Fitting b p)
    (hw : f.Waiting b) (hs : W.store s) : Frame.stepped W b p (stepOnce ctx ⟨f, s⟩) := by
  obtain ⟨i, states, o, j, hi, -, hj, hop, hl, hd, hrun⟩ := operate_waiting hb hw
  obtain ⟨i', hi', hstep⟩ := step?_of_live hb hp (waiting_live hb hw)
  rw [hi] at hi'
  cases hi'
  have hprogram : f.program = p := hf.program
  rw [stepOnce_run (by rw [hprogram]; exact hstep), execute_eq_operate, hrun]
  refine ⟨hs, ⟨hf.program, hf.locals, hf.cells⟩, hl, hd, fun i hi => ?_, fun i hi h => ?_⟩
  · obtain rfl : j = i := Option.some.inj (hj.symm.trans hi)
    rw [hop]
    exact hw.given.symm
  · obtain rfl : j = i := Option.some.inj (hj.symm.trans hi)
    rw [hop] at h
    cases h

/-- An instruction leaves nothing behind of what the frame was given. -/
theorem shift_of_running (hf : f.Fitting b p) (hrun : f.Running b) {i : Instr}
    (hi : b.instrs[f.pc]? = some i) : (i.op.shift f.footing).Fitting b p
      ∧ (i.op.shift f.footing).pc = f.pc ∧ (i.op.shift f.footing).resumption = none := by
  have hgiven := hrun.given i hi
  unfold Op.shift
  split
  · exact ⟨⟨hf.program, hf.locals, hf.cells⟩, rfl, rfl⟩
  · rename_i hne
    refine ⟨hf, rfl, ?_⟩
    have hnone : i.op.resumed? = none :=
      Option.eq_none_iff_forall_ne_some.mpr fun k hk => hne k (Op.resumed?_eq_some.mp hk)
    rw [hnone] at hgiven
    exact Option.isNone_iff_eq_none.mp (Option.isSome_eq_false_iff.mp hgiven.symm)

theorem fitting_goTo {a : Activation} (h : a.frame.footing.Fitting b p) (pc : Nat) :
    (a.goTo pc).frame.Fitting b p :=
  ⟨h.program, h.locals, h.cells⟩

theorem operate_fresh (hrun : f.Running b) {i : Instr} {states : List (Nat × Nat)}
    (hi : b.instrs[f.pc]? = some i) (hop : i.op = .resumeDispatch states) (lowering : Lowering)
    (ctx : Context) (s : Store) : operate i.op lowering ctx ⟨f, s⟩ = .ok .next ⟨f, s⟩ := by
  have hzero := hrun.fresh i hi (by rw [hop]; rfl)
  rw [hop]
  exact (dispatch_run states ctx f s).trans (if_pos hzero)

/-- The instruction of a running frame follows the table. -/
theorem operate_running (hb : b.Accepted ty) (hp : p.Of ty b) (hf : f.Fitting b p)
    (hrun : f.Running b) (hc : W.context ctx) (hs : W.store s) {i : Instr}
    (hi : b.instrs[f.pc]? = some i) (hdispatch : i.op.isDispatch = false)
    {ws : List (Successor × Nat × List Block)}
    (hm : i.op.moves (b.analysis.state f.pc).depth (b.analysis.state f.pc).blocks = some ws)
    (lowering : Lowering) :
    i.op.Outcome W (i.op.shift f.footing) ws (operate i.op lowering ctx ⟨f, s⟩) := by
  have hfit : i.op.FitsIn f.footing := by
    rw [Op.FitsIn, hf.locals, hf.cells, hf.program, hp.code]
    exact hb.fits.op i (List.mem_of_getElem? hi)
  refine operate_outcome hm hfit (fun states h => ?_) (fun k h => ?_) hc rfl hrun.depth hs
  · rw [h] at hdispatch
    cases hdispatch
  · have hgiven := hrun.given i hi
    rw [h] at hgiven
    exact hgiven.symm

/-- **A step of a running frame stays in lockstep.** -/
theorem step_running (hb : b.Accepted ty) (hp : p.Of ty b) (hf : f.Fitting b p)
    (hrun : f.Running b) (hc : W.context ctx) (hs : W.store s) :
    Frame.stepped W b p (stepOnce ctx ⟨f, s⟩) := by
  obtain ⟨i, hi, hstep⟩ := step?_of_live hb hp hrun.live
  have hprogram : f.program = p := hf.program
  rw [stepOnce_run (by rw [hprogram]; exact hstep), execute_eq_operate]
  obtain ⟨ws, hm, hall⟩ := hb.solves.moves hi hrun.live
  cases hdispatch : i.op.isDispatch with
  | true =>
    obtain ⟨states, hop⟩ := Op.eq_resumeDispatch hdispatch
    rw [operate_fresh hrun hi hop]
    rw [hop, Op.moves_of_arity rfl, if_pos (Nat.zero_le _)] at hm
    cases hm
    obtain ⟨hlive, hdepth, -⟩ := hall (.head _)
    have hgiven := hrun.given i hi
    rw [hop] at hgiven
    refine ⟨hs, ⟨hf.program, hf.locals, hf.cells⟩, .of_ordinary hlive ?_ ?_ ?_⟩
    · exact hrun.depth.trans hdepth.symm
    · exact Option.isNone_iff_eq_none.mp (Option.isSome_eq_false_iff.mp hgiven.symm)
    · exact hb.ordinary_next hi (by rw [hop]; rfl)
  | false =>
    have hout := operate_running hb hp hf hrun hc hs hi hdispatch hm
      (i.op.lowering ty (b.analysis.state f.pc) b.returnType)
    obtain ⟨hr, hpc, hnone⟩ := shift_of_running hf hrun hi
    cases hres : operate i.op (i.op.lowering ty (b.analysis.state f.pc) b.returnType) ctx ⟨f, s⟩ with
    | error e a =>
      rw [hres] at hout
      obtain ⟨hs, hfoot, he⟩ := hout
      exact stepped_of_routed hb hp hr (hpc ▸ hrun.live) hnone (routeFault_outcome hc he hfoot hs)
    | ok flow a =>
      rw [hres] at hout
      cases flow with
      | next =>
        obtain ⟨hs, hfoot, ⟨bs, hw⟩, hsus⟩ := hout
        obtain ⟨hlive, hdepth, -⟩ := hall hw
        refine ⟨hs, ?_, .of_ordinary hlive hdepth.symm ?_ (hb.ordinary_next hi (hsus rfl))⟩
        · exact fitting_goTo (hfoot ▸ hr) _
        · exact (congrArg Footing.resumption hfoot).trans hnone
      | jump t =>
        obtain ⟨hs, hfoot, ⟨bs, hw⟩, -⟩ := hout
        obtain ⟨hlive, hdepth, -⟩ := hall hw
        refine ⟨hs, ?_, .of_ordinary hlive hdepth.symm ?_ (hb.ordinary_target
          (List.mem_of_getElem? hi) (Op.moves_jump hm hw))⟩
        · exact fitting_goTo (hfoot ▸ hr) _
        · exact (congrArg Footing.resumption hfoot).trans hnone
      | leave v => exact hout.1
      | yields v =>
        obtain ⟨hs, k, bs, hk, hfoot, hw⟩ := hout
        obtain ⟨hlive, hdepth, -⟩ := hall hw
        have hgen := hb.generator_of_suspension hi hk
        obtain ⟨j, hj, hop⟩ := (hb.machine hgen).resumed hi hk
        have hstate : a.frame.state = k := congrArg Footing.state hfoot
        refine ⟨hs, suspend_waiting hb hp hgen ?_ hj (hstate ▸ hop) hlive hdepth.symm⟩
        rw [Frame.Fitting, hfoot]
        exact ⟨hr.program, hr.locals, hr.cells⟩

/-! ## 4. Runs -/

/-- The activation after `n` steps that did not leave the frame. -/
def after (ctx : Context) : Nat → Activation → Option Activation
  | 0, a => some a
  | n + 1, a =>
    match stepOnce ctx a with
    | .ok none a => after ctx n a
    | _ => none

theorem locked_live (hb : b.Accepted ty) (hf : f.Locked b p) :
    (b.analysis.state f.pc).dead = false := by
  rcases hf.2 with hrun | hwait
  · exact hrun.live
  · exact waiting_live hb hwait

theorem step_locked (hb : b.Accepted ty) (hp : p.Of ty b) (hf : f.Locked b p)
    (hc : W.context ctx) (hs : W.store s) : Frame.stepped W b p (stepOnce ctx ⟨f, s⟩) := by
  obtain ⟨hfit, hrun | hwait⟩ := hf
  · exact step_running hb hp hfit hrun hc hs
  · exact step_waiting hb hp hfit hwait hs

/-- After the first step a frame runs. -/
theorem after_running (hb : b.Accepted ty) (hp : p.Of ty b) (hf : f.Locked b p)
    (hc : W.context ctx) (hs : W.store s) {n : Nat} {a : Activation}
    (h : after ctx (n + 1) ⟨f, s⟩ = some a) : a.frame.Fitting b p ∧ a.frame.Running b := by
  induction n generalizing f s with
  | zero =>
    have hstep := step_locked hb hp hf hc hs
    rw [after] at h
    split at h
    · rename_i a' hres
      cases h
      rw [hres] at hstep
      exact hstep.2
    · cases h
  | succ n ih =>
    have hstep := step_locked hb hp hf hc hs
    rw [after] at h
    split at h
    · rename_i a' hres
      rw [hres] at hstep
      exact ih ⟨hstep.2.1, .inl hstep.2.2⟩ hstep.1 h
    · cases h

/-- A run ends in a suspension that can be resumed, in a value, or in a tolerated fault. -/
theorem runSteps_stepped (hb : b.Accepted ty) (hp : p.Of ty b) (hf : f.Locked b p)
    (hc : W.context ctx) (hs : W.store s) (n : Nat) : Frame.stepped W b p
      (match runSteps ctx n ⟨f, s⟩ with
        | .ok exit a => .ok (some exit) a
        | .error e a => .error e a) := by
  induction n generalizing f s with
  | zero => exact ⟨hs, W.other _ rfl⟩
  | succ n ih =>
    have hstep := step_locked hb hp hf hc hs
    rw [runSteps]
    cases hres : stepOnce ctx ⟨f, s⟩ with
    | error e a =>
      rw [hres] at hstep
      exact hstep
    | ok exit a =>
      rw [hres] at hstep
      cases exit with
      | none => exact ih ⟨hstep.2.1, .inl hstep.2.2⟩ hstep.1
      | some exit => exact hstep

/-- **Every frame of a compiled program is in lockstep.** -/
theorem locked_of (hb : b.Accepted ty) (hp : p.Of ty b) (hf : Frame.Of p f) : f.Locked b p := by
  induction hf with
  | @new fn locals ctx s s' f hlocals h =>
    obtain ⟨hprogram, hl, hcells, hstack, hpc, hstate, hgiven⟩ := newFrame_eq_ok h
    obtain ⟨hlive, hform⟩ := hb.solves.entry rfl
    refine ⟨⟨hprogram, ?_, ?_⟩, .inl ⟨?_, ?_, ?_, fun _ _ _ => hstate⟩⟩
    · rw [← hp.code, ← hlocals, ← hl]
      rfl
    · rw [← hp.code, ← hcells]
      rfl
    · rw [hpc]
      exact hlive
    · rw [hpc, ← hform.depth, hstack]
      rfl
    · intro i hi
      rw [hpc] at hi
      rw [hgiven, hb.entry_not_resumed hi]
      rfl
  | @resumed f ctx n s v a saved hf h hsaved r ih =>
    have hrun := runSteps_stepped hb hp ih (Tolerance.all_context ctx) (Tolerance.all_store s) n
    rw [h] at hrun
    obtain ⟨-, saved', hsaved', hall⟩ := hrun
    rw [hsaved] at hsaved'
    cases hsaved'
    exact ⟨(hall r).1, .inr (hall r).2⟩

/-! ## 5. The theorem -/

end Machine

end Stackwise
