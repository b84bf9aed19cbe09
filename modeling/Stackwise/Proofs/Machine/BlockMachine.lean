import Stackwise.Proofs.Bytecode.Streams
import Stackwise.Proofs.Machine.Lockstep

/-!
# The machine with open blocks

The machine finds handlers in a table of regions and keeps no blocks. Here is a machine that keeps
them: it opens and closes blocks as it comes by, and an exception goes to the innermost block that
is protected.

* `Caught.find?`: what an exception pops from the open blocks.
* `blockStep`: one step of the machine with blocks.
* `Reaches`: the frames that this machine comes to, with their blocks, through all steps and
  suspensions.
* `Blocks.Follows`: the open blocks are those of the analysis. One step keeps this.
* `regions_refine_blocks`: the table sends every exception where the open blocks send it.
-/

namespace Stackwise

/-! ## 1. Blocks -/

/-- What an exception pops from the open blocks. -/
structure Caught where
  /-- Levels of the handlers that it leaves, innermost first. -/
  left : List Nat
  /-- Handler of the protected block that catches it. -/
  handler : Nat
  /-- Level of that block. -/
  level : Nat
  /-- The blocks that stay open. -/
  outer : List Block
  deriving DecidableEq, Repr

namespace Caught

/-- Pops blocks up to the innermost protected one. -/
def find? : List Block → Option Caught
  | [] => none
  | .protect handler level _ :: outer => some { left := [], handler, level, outer }
  | .handling l :: rest => (find? rest).map fun c => { c with left := l :: c.left }

/-- Level of the outermost handler that the exception leaves. -/
def restoreAt (c : Caught) : Option Nat := c.left.getLast?

/-- Where the exception goes. -/
def aim (c : Caught) : Nat × Nat × Option Nat := (c.handler, c.level, c.restoreAt)

end Caught

/-- The blocks of a frame. -/
structure Blocks where
  /-- The open blocks, innermost first. -/
  opened : List Block
  /-- The blocks that were open when the frame was last suspended. -/
  kept : List Block
  deriving DecidableEq, Repr

namespace Blocks

/-- No blocks. -/
def empty : Blocks := { opened := [], kept := [] }

/-- The blocks after an operation that leaves `n` values on the stack. A frame that goes on after a
suspension has the blocks with which it was suspended. -/
def after (op : Op) (flow : Flow) (n : Nat) (bs : Blocks) : Blocks :=
  match op, flow with
  | .resumeDispatch _, .jump _ => { bs with opened := bs.kept }
  | op, _ => { bs with opened := op.opened n bs.opened }

/-- The blocks of a frame that is resumed. It starts at the entry, where no block is open. -/
def resumed (bs : Blocks) : Blocks := { opened := [], kept := bs.opened }

end Blocks

namespace Machine

/-! ## 2. The machine -/

/-- Starts a handler: cuts the stack to its level and puts the exception handled so far and the new
one on it. -/
def startHandler (e : Raised) (handler level : Nat) (restoreAt : Option Nat) :
    FrameAction Unit := do
  let f ← frame
  let handled := ((restoreAt.bind (restored? f.stack)).getD f.handled)
  if f.stack.length < level then
    updateFrame fun f => { f with handled }
    broken (.handlerLevel f.stack.length level)
  else
    let before ← triple handled
    let now ← triple (some e)
    updateFrame fun f => { f with
      stack := now ++ before ++ Stack.cut f.stack level
      handled := some e
      pc := handler }

/-- Routes an exception by the open blocks; without a protected one it leaves the frame. -/
def blockUnwind (e : Raised) (bs : Blocks) : FrameAction Blocks := do
  match Caught.find? bs.opened with
  | none => throw (.raised e)
  | some c =>
    startHandler e c.handler c.level c.restoreAt
    return { bs with opened := .handling c.level :: c.outer }

/-- Routes the fault of an instruction at an offset by the open blocks. -/
def blockRoute (step : Step) (pc : Nat) (fault : Fault) (bs : Blocks) : FrameAction Blocks := do
  let e ← catchable fault
  let name := (← frame).program.name
  match step.op with
  | .reraise _ => blockUnwind e bs
  | _ =>
    record e { function := name, offset := pc, line := step.line }
    blockUnwind e bs

/-- Carries out the instruction at the current offset, on a frame with open blocks. -/
def blockStep (bs : Blocks) : FrameAction (Option Exit × Blocks) := do
  let pc := (← frame).pc
  match (← frame).program.step? pc with
  | none => broken .noInstruction
  | some step =>
    match ← attemptStep step with
    | .ok flow =>
      let bs := bs.after step.op flow (← frame).stack.length
      match flow with
      | .next => return (← goTo (pc + 1), bs)
      | .jump target => return (← goTo target, bs)
      | .leave v => return (some (.returns v), bs)
      | .yields v => return (some (.yields v), bs)
    | .error e => return (none, ← blockRoute step pc e bs)

/-- The frames that the machine with blocks comes to: from a call, through steps in whatever
contexts and stores, and through suspensions. -/
inductive Reaches (p : Program) : Frame → Blocks → Prop
  | start {fn : Function} {locals : Array (Option Value)} {ctx : Context} {s s' : Store} {f : Frame}
    (hlocals : locals.size = p.code.localCount) (h : newFrame p fn locals ctx s = .ok f s') :
    Reaches p f .empty
  | step {f : Frame} {bs bs' : Blocks} {ctx : Context} {s : Store} {a : Activation}
    (hf : Reaches p f bs) (h : blockStep bs ctx ⟨f, s⟩ = .ok (none, bs') a) : Reaches p a.frame bs'
  | resume {f : Frame} {bs bs' : Blocks} {ctx : Context} {s : Store} {v : Value} {a : Activation}
    {saved : SavedFrame} (hf : Reaches p f bs)
    (h : blockStep bs ctx ⟨f, s⟩ = .ok (some (.yields v), bs') a)
    (hsaved : a.frame.suspend? = .ok saved) (r : Resumption) :
    Reaches p (saved.resume r) bs'.resumed

end Machine

/-! ## 3. Table and blocks -/

namespace Caught

theorem unwindFrom_aim (restoreAt : Option Nat) (bs : List Block) :
    (AbstractState.unwindFrom restoreAt bs).map Unwind.aim
      = (find? bs).map fun c => (c.handler, c.level, c.restoreAt.or restoreAt) := by
  induction bs generalizing restoreAt with
  | nil => rfl
  | cons b bs ih =>
    cases b with
    | protect h l k => rfl
    | handling l =>
      rw [AbstractState.unwindFrom, ih, find?, Option.map_map]
      refine congrArg (Option.map · (find? bs)) (funext fun c => ?_)
      simp only [Function.comp_apply, Caught.restoreAt, List.getLast?_cons]
      cases c.left.getLast? <;> rfl

/-- The open blocks send an exception where the state with these blocks sends it. -/
theorem find?_aim (s : AbstractState) :
    (find? s.blocks).map aim = s.unwind?.map Unwind.aim := by
  rw [AbstractState.unwind?, unwindFrom_aim]
  refine congrArg (Option.map · (find? s.blocks)) (funext fun c => ?_)
  rw [Option.or_none]
  rfl

theorem find?_outer {bs : List Block} {c : Caught} (h : find? bs = some c) :
    c.outer = AbstractState.outerBlocks bs := by
  induction bs generalizing c with
  | nil => cases h
  | cons b bs ih =>
    cases b with
    | protect hd l k =>
      cases h
      rfl
    | handling l =>
      obtain ⟨c', hc', rfl⟩ := Option.map_eq_some_iff.mp h
      exact (ih hc' : c'.outer = _)

/-- An exception is caught exactly when a protected block is open. -/
theorem find?_isSome {bs : List Block} :
    (find? bs).isSome = true ↔ ∃ h l k, Block.protect h l k ∈ bs := by
  induction bs with
  | nil => simp only [find?, Option.isSome_none, Bool.false_eq_true, List.not_mem_nil, exists_false]
  | cons b bs ih =>
    cases b with
    | protect h l k => exact iff_of_true rfl ⟨h, l, k, .head _⟩
    | handling l =>
      rw [find?, Option.isSome_map, ih]
      simp only [List.mem_cons, reduceCtorEq, false_or]

end Caught

namespace Machine

variable {ty : Typer} {b : CompiledBody} {p : Program} {f : Frame} {bs : Blocks} {ctx : Context}
  {s : Store}

theorem run_map {α β : Type} (g : α → β) (x : FrameAction α) (ctx : Context) (a : Activation) :
    (g <$> x) ctx a = match x ctx a with
      | .ok v a => .ok (g v) a
      | .error e a => .error e a := by
  simp only [Functor.map, EStateM.map]
  cases x ctx a <;> rfl

/-- What happens in the store leaves the frame alone. -/
theorem run_lift_bind {α β : Type} (act : Action α) (k : α → FrameAction β) (ctx : Context)
    (f : Frame) (s : Store) : (liftM act >>= k) ctx ⟨f, s⟩ = match act ctx s with
      | .ok v s => k v ctx ⟨f, s⟩
      | .error e s => .error e ⟨f, s⟩ := by
  have hrun : (liftM act : FrameAction α) ctx ⟨f, s⟩ = inFrame act ctx ⟨f, s⟩ := rfl
  simp only [Bind.bind, ReaderT.bind, EStateM.bind, hrun, inFrame]
  cases act ctx s <;> rfl

/-- The table says what the open blocks say, where these are the blocks of the analysis. -/
theorem region_aim (hb : b.Accepted ty) (hp : p.Of ty b)
    (hlive : (b.analysis.state f.pc).dead = false)
    (hopened : bs.opened = (b.analysis.state f.pc).blocks) :
    (Region.find? p.regions f.pc).map Region.aim = (Caught.find? bs.opened).map Caught.aim := by
  rw [hp.regions, hb.regions, Region.aim_find?_table, hlive, if_neg Bool.false_ne_true, hopened,
    Caught.find?_aim]

theorem unwind_run (e : Raised) (ctx : Context) (f : Frame) (s : Store) :
    unwind e ctx ⟨f, s⟩ = (match Region.find? f.program.regions f.pc with
      | none => throw (.raised e)
      | some r => startHandler e r.handler r.level r.restoreAt : FrameAction Unit) ctx ⟨f, s⟩ := by
  have hunfold : unwind e ctx ⟨f, s⟩ = (match Region.find? f.program.regions f.pc with
      | none => throw (.raised e)
      | some region => do
        let handled := ((region.restoreAt.bind (restored? f.stack)).getD f.handled)
        if f.stack.length < region.level then
          updateFrame fun f => { f with handled }
          broken (.handlerLevel f.stack.length region.level)
        else
          let before ← triple handled
          let now ← triple (some e)
          updateFrame fun f => { f with
            stack := now ++ before ++ Stack.cut f.stack region.level
            handled := some e
            pc := region.handler } : FrameAction Unit) ctx ⟨f, s⟩ := rfl
  rw [hunfold]
  cases Region.find? f.program.regions f.pc <;> rfl

/-- An exception goes the same way by table and by blocks. -/
theorem unwind_eq (e : Raised) (ctx : Context) (s : Store)
    (haim : (Region.find? f.program.regions f.pc).map Region.aim
      = (Caught.find? bs.opened).map Caught.aim) :
    unwind e ctx ⟨f, s⟩ = ((fun _ => ()) <$> blockUnwind e bs) ctx ⟨f, s⟩ := by
  rw [unwind_run]
  unfold blockUnwind
  cases hfind : Region.find? f.program.regions f.pc with
  | none =>
    rw [hfind, Option.map_none, eq_comm, Option.map_eq_none_iff] at haim
    rw [haim]
    rfl
  | some r =>
    rw [hfind, Option.map_some, eq_comm, Option.map_eq_some_iff] at haim
    obtain ⟨c, hc, haim⟩ := haim
    simp only [Caught.aim, Region.aim, Prod.mk.injEq] at haim
    rw [hc]
    dsimp only
    rw [← haim.1, ← haim.2.1, ← haim.2.2]
    rw [run_map]
    simp only [Bind.bind, ReaderT.bind, EStateM.bind]
    cases startHandler e c.handler c.level c.restoreAt ctx ⟨f, s⟩ <;> rfl

theorem route_eq {step : Step} {pc : Nat} {e : Fault}
    (haim : (Region.find? f.program.regions f.pc).map Region.aim
      = (Caught.find? bs.opened).map Caught.aim) :
    routeFault step pc e ctx ⟨f, s⟩
      = ((fun _ => none) <$> blockRoute step pc e bs) ctx ⟨f, s⟩ := by
  have hunwind : ∀ x s, (do unwind x; return none : FrameAction (Option Exit)) ctx ⟨f, s⟩
      = ((fun _ => none) <$> blockUnwind x bs) ctx ⟨f, s⟩ := by
    intro x s
    have h := unwind_eq x ctx s haim
    rw [run_map] at h ⊢
    simp only [Bind.bind, ReaderT.bind, EStateM.bind]
    rw [h]
    cases blockUnwind x bs ctx ⟨f, s⟩ <;> rfl
  have hrecord : ∀ x entry s,
      (do record x entry; unwind x; return none : FrameAction (Option Exit)) ctx ⟨f, s⟩
        = ((fun _ => none) <$> (do record x entry; blockUnwind x bs : FrameAction Blocks))
          ctx ⟨f, s⟩ := by
    intro x entry s
    rw [map_bind, run_lift_bind, run_lift_bind]
    cases record x entry ctx s with
    | error e s => rfl
    | ok _ s => exact hunwind x s
  unfold routeFault blockRoute
  rw [map_bind, run_lift_bind, run_lift_bind]
  cases catchable e ctx s with
  | error e s => rfl
  | ok x s =>
    have hframe : ∀ {α : Type} (k : Frame → FrameAction α) s, (frame >>= k) ctx ⟨f, s⟩
        = k f ctx ⟨f, s⟩ := fun k s => rfl
    dsimp only
    rw [map_bind, hframe, hframe]
    cases step.op with
    | reraise _ => exact hunwind x s
    | _ => exact hrecord x _ s

theorem blockStep_run {step : Step} (hstep : f.program.step? f.pc = some step) (bs : Blocks)
    (ctx : Context) (s : Store) : blockStep bs ctx ⟨f, s⟩ = match execute step ctx ⟨f, s⟩ with
      | .ok .next a =>
        .ok (none, bs.after step.op .next a.frame.stack.length) (a.goTo (f.pc + 1))
      | .ok (.jump t) a => .ok (none, bs.after step.op (.jump t) a.frame.stack.length) (a.goTo t)
      | .ok (.leave v) a =>
        .ok (some (.returns v), bs.after step.op (.leave v) a.frame.stack.length) a
      | .ok (.yields v) a =>
        .ok (some (.yields v), bs.after step.op (.yields v) a.frame.stack.length) a
      | .error e a => ((fun bs => (none, bs)) <$> blockRoute step f.pc e bs) ctx a := by
  have hunfold : blockStep bs ctx ⟨f, s⟩ = (match f.program.step? f.pc with
      | none => broken .noInstruction
      | some step => attemptStep step >>= fun
        | .ok flow => do
          let bs := bs.after step.op flow (← frame).stack.length
          match flow with
          | .next => return (← goTo (f.pc + 1), bs)
          | .jump target => return (← goTo target, bs)
          | .leave v => return (some (.returns v), bs)
          | .yields v => return (some (.yields v), bs)
        | .error e => return (none, ← blockRoute step f.pc e bs)
        : FrameAction (Option Exit × Blocks)) ctx ⟨f, s⟩ := rfl
  rw [hunfold, hstep]
  simp only [Bind.bind, ReaderT.bind, EStateM.bind, attemptStep_run]
  cases execute step ctx ⟨f, s⟩ with
  | error e a =>
    exact (congrFun (congrFun (map_eq_pure_bind _ (blockRoute step f.pc e bs)) ctx) a).symm
  | ok flow a => cases flow <;> rfl

end Machine

/-! ## 4. Steps -/

namespace Blocks

/-- The blocks of a frame are those of the analysis: at its offset, and for a frame that was resumed
at the resume point that it will go to. -/
structure Follows (b : CompiledBody) (f : Frame) (bs : Blocks) : Prop where
  opened : bs.opened = (b.analysis.state f.pc).blocks
  kept : f.Waiting b → ∀ o i, b.instrs[o]? = some i → i.op = .resumePoint f.state →
    (b.analysis.state o).blocks = bs.kept

/-- What a step leaves open. -/
def stepped (b : CompiledBody) : EStateM.Result Fault Activation (Option Exit × Blocks) → Prop
  | .ok (none, bs) a => bs.opened = (b.analysis.state a.frame.pc).blocks
  | .ok (some (.yields _), bs) a => ∀ o i, b.instrs[o]? = some i →
      i.op = .resumePoint a.frame.state → (b.analysis.state o).blocks = bs.opened
  | .ok (some (.returns _), _) _ => True
  | .error _ _ => True

theorem after_opened {op : Op} {flow : Flow} (h : op.isDispatch = true → flow = .next) (n : Nat)
    (bs : Blocks) : (bs.after op flow n).opened = op.opened n bs.opened := by
  cases op with
  | resumeDispatch states =>
    obtain rfl := h rfl
    rfl
  | _ => rfl

end Blocks

namespace Machine

variable {ty : Typer} {b : CompiledBody} {p : Program} {f : Frame} {bs : Blocks} {ctx : Context}
  {s : Store}

theorem startHandler_pc {e : Raised} {handler level : Nat} {restoreAt : Option Nat} {a a' : Activation}
    (h : startHandler e handler level restoreAt ctx a = .ok () a') : a'.frame.pc = handler := by
  unfold startHandler at h
  obtain ⟨f, a₁, -, h⟩ := run_bind_eq_ok.mp h
  split at h
  · obtain ⟨_, a₂, -, h⟩ := run_bind_eq_ok.mp h
    cases h
  · obtain ⟨before, a₂, -, h⟩ := run_bind_eq_ok.mp h
    obtain ⟨now, a₃, -, h⟩ := run_bind_eq_ok.mp h
    cases h
    rfl

theorem blockUnwind_eq_ok {e : Raised} {bs' : Blocks} {a a' : Activation}
    (h : blockUnwind e bs ctx a = .ok bs' a') : ∃ c, Caught.find? bs.opened = some c
      ∧ a'.frame.pc = c.handler ∧ bs'.opened = .handling c.level :: c.outer := by
  unfold blockUnwind at h
  cases hc : Caught.find? bs.opened with
  | none =>
    rw [hc] at h
    cases h
  | some c =>
    rw [hc] at h
    obtain ⟨_, a₁, hstart, h⟩ := run_bind_eq_ok.mp h
    cases h
    exact ⟨c, rfl, startHandler_pc hstart, rfl⟩

theorem blockRoute_eq_ok {step : Step} {pc : Nat} {e : Fault} {bs' : Blocks} {a a' : Activation}
    (h : blockRoute step pc e bs ctx a = .ok bs' a') : ∃ c, Caught.find? bs.opened = some c
      ∧ a'.frame.pc = c.handler ∧ bs'.opened = .handling c.level :: c.outer := by
  unfold blockRoute at h
  obtain ⟨x, a₁, -, h⟩ := run_bind_eq_ok.mp h
  obtain ⟨f, a₂, -, h⟩ := run_bind_eq_ok.mp h
  generalize step.op = op at h
  cases op with
  | reraise _ => exact blockUnwind_eq_ok h
  | _ =>
    obtain ⟨_, a₃, -, h⟩ := run_bind_eq_ok.mp h
    exact blockUnwind_eq_ok h

/-- An exception opens the blocks with which its handler starts. -/
theorem stepped_of_route (hb : b.Accepted ty) (hlive : (b.analysis.state f.pc).dead = false)
    (hopened : bs.opened = (b.analysis.state f.pc).blocks) (step : Step) (pc : Nat) (e : Fault)
    (a : Activation) :
    Blocks.stepped b (((fun bs => (none, bs)) <$> blockRoute step pc e bs) ctx a) := by
  rw [run_map]
  cases hres : blockRoute step pc e bs ctx a with
  | error e a => trivial
  | ok bs' a' =>
    obtain ⟨c, hc, hpc, hbs'⟩ := blockRoute_eq_ok hres
    have haim := Caught.find?_aim (b.analysis.state f.pc)
    rw [← hopened, hc] at haim
    obtain ⟨u, hu, haim⟩ := Option.map_eq_some_iff.mp haim.symm
    simp only [Unwind.aim, Caught.aim, Prod.mk.injEq] at haim
    obtain ⟨-, -, hblocks, -⟩ := hb.solves.unwinds rfl rfl hlive hu
    change bs'.opened = (b.analysis.state a'.frame.pc).blocks
    rw [hpc, hbs', ← haim.1, hblocks, haim.2.1, Caught.find?_outer hc, hopened]

/-- An operation that opens a block goes on inside it. -/
theorem operate_opens {op : Op} {lowering : Lowering} {h : Nat} (ht : op.handlerTarget? = some h)
    {a a' : Activation} {flow : Flow} (hrun : operate op lowering ctx a = .ok flow a') :
    flow = .next := by
  cases op with
  | setupFinally _ _ _ | setupWith _ =>
    obtain ⟨_, a₁, -, hrun⟩ := run_bind_eq_ok.mp hrun
    cases hrun
    rfl
  | _ => cases ht

/-- **A step of a running frame opens and closes the blocks of the analysis.** -/
theorem blockStep_running (hb : b.Accepted ty) (hp : p.Of ty b) (hf : f.Fitting b p)
    (hrun : f.Running b) (hopened : bs.opened = (b.analysis.state f.pc).blocks) :
    Blocks.stepped b (blockStep bs ctx ⟨f, s⟩) := by
  obtain ⟨i, hi, hstep⟩ := step?_of_live hb hp hrun.live
  have hprogram : f.program = p := hf.program
  rw [blockStep_run (by rw [hprogram]; exact hstep), execute_eq_operate]
  obtain ⟨ws, hm, hall⟩ := hb.solves.moves hi hrun.live
  -- the blocks of a way on that is no handler are those that the operation leaves open
  have hways : ∀ {flow succ n bs'}, (i.op.isDispatch = true → flow = .next) →
      (succ, n, bs') ∈ ws → (∀ h, i.op.handlerTarget? = some h → succ ≠ .jump h) →
      (bs.after i.op flow n).opened = (b.analysis.state (succ.target f.pc)).blocks := by
    intro flow succ n bs' hflow hw hsucc
    rcases Op.moves_ways hm hw with ⟨hbs', -⟩ | ⟨h, ht, hjump⟩
    · rw [Blocks.after_opened hflow, hopened, ← hbs', (hall hw).2.2]
    · exact absurd hjump (hsucc h ht)
  cases hdispatch : i.op.isDispatch with
  | true =>
    obtain ⟨states, hop⟩ := Op.eq_resumeDispatch hdispatch
    rw [operate_fresh hrun hi hop]
    have hw : (.next, f.stack.length, (b.analysis.state f.pc).blocks) ∈ ws := by
      rw [hop, Op.moves_of_arity rfl, if_pos (Nat.zero_le _)] at hm
      cases hm
      rw [hrun.depth]
      exact .head _
    exact hways (fun _ => rfl) hw fun h _ heq => by cases heq
  | false =>
    have hout := operate_running hb hp hf hrun (Tolerance.all_context ctx) (Tolerance.all_store s)
      hi hdispatch hm (i.op.lowering ty (b.analysis.state f.pc) b.returnType)
    cases hres : operate i.op (i.op.lowering ty (b.analysis.state f.pc) b.returnType) ctx ⟨f, s⟩ with
    | error e a => exact stepped_of_route hb hrun.live hopened _ _ e a
    | ok flow a =>
      rw [hres] at hout
      cases flow with
      | next =>
        obtain ⟨-, -, ⟨bs', hw⟩, -⟩ := hout
        exact hways (fun _ => rfl) hw fun h _ heq => by cases heq
      | jump t =>
        obtain ⟨-, -, ⟨bs', hw⟩, -⟩ := hout
        refine hways (fun h => by rw [hdispatch] at h; cases h) hw fun h ht _ => ?_
        cases operate_opens ht hres
      | leave v => trivial
      | yields v =>
        obtain ⟨-, k, bs', hk, hfoot, hw⟩ := hout
        have hstate : a.frame.state = k := congrArg Footing.state hfoot
        have hm := hb.machine (hb.generator_of_suspension hi hk)
        intro o j hj hop
        obtain ⟨j', hj', hop'⟩ := hm.resumed hi hk
        obtain rfl := hm.resumePoint_unique hb.fits.dense hj hop hj' (hstate ▸ hop')
        exact (hways (fun h => by rw [hdispatch] at h; cases h) hw
          fun h _ heq => by cases heq).symm

theorem blockStep_waiting (hb : b.Accepted ty) (hp : p.Of ty b) (hf : f.Fitting b p)
    (hw : f.Waiting b) (hbs : bs.Follows b f) : Blocks.stepped b (blockStep bs ctx ⟨f, s⟩) := by
  obtain ⟨i, states, o, j, hi, hdispatch, hj, hop, -, -, hrun⟩ := operate_waiting hb hw
  obtain ⟨i', hi', hstep⟩ := step?_of_live hb hp (waiting_live hb hw)
  rw [hi] at hi'
  cases hi'
  have hprogram : f.program = p := hf.program
  rw [blockStep_run (by rw [hprogram]; exact hstep), execute_eq_operate, hrun, hdispatch]
  exact (hbs.kept hw o j hj hop).symm

theorem blockStep_locked (hb : b.Accepted ty) (hp : p.Of ty b) (hf : f.Locked b p)
    (hbs : bs.Follows b f) : Blocks.stepped b (blockStep bs ctx ⟨f, s⟩) := by
  obtain ⟨hfit, hrun | hwait⟩ := hf
  · exact blockStep_running hb hp hfit hrun hbs.opened
  · exact blockStep_waiting hb hp hfit hwait hbs

/-- An instruction that fails leaves the frame at its offset. -/
theorem execute_stays (hb : b.Accepted ty) (hp : p.Of ty b) (hf : f.Locked b p) {step : Step}
    (hstep : p.step? f.pc = some step) {e : Fault} {a : Activation}
    (h : execute step ctx ⟨f, s⟩ = .error e a) : a.frame.program = p ∧ a.frame.pc = f.pc := by
  obtain ⟨i, hi, -, rfl⟩ := (hp.step f.pc step).mp hstep
  rw [execute_eq_operate] at h
  obtain ⟨hfit, hrun | hwait⟩ := hf
  · cases hdispatch : i.op.isDispatch with
    | true =>
      obtain ⟨states, hop⟩ := Op.eq_resumeDispatch hdispatch
      rw [operate_fresh hrun hi hop] at h
      cases h
    | false =>
      obtain ⟨ws, hm, -⟩ := hb.solves.moves hi hrun.live
      have hout := operate_running hb hp hfit hrun (Tolerance.all_context ctx)
        (Tolerance.all_store s) hi hdispatch hm
        (i.op.lowering ty (b.analysis.state f.pc) b.returnType)
      rw [h] at hout
      obtain ⟨hr, hpc, -⟩ := shift_of_running hfit hrun hi
      exact ⟨(congrArg Footing.program hout.2.1).trans hr.program,
        (congrArg Footing.pc hout.2.1).trans hpc⟩
  · obtain ⟨i', states, o, j, hi', -, -, -, -, -, hoperate⟩ := operate_waiting hb hwait
    obtain rfl : i = i' := Option.some.inj (hi.symm.trans hi')
    rw [hoperate] at h
    cases h

/-- **A step goes the same way by table and by blocks.** -/
theorem stepOnce_eq_blockStep (hb : b.Accepted ty) (hp : p.Of ty b) (hf : f.Locked b p)
    (hopened : bs.opened = (b.analysis.state f.pc).blocks) :
    stepOnce ctx ⟨f, s⟩ = (Prod.fst <$> blockStep bs) ctx ⟨f, s⟩ := by
  have hlive := locked_live hb hf
  obtain ⟨i, -, hstep⟩ := step?_of_live hb hp hlive
  have hprogram : f.program = p := hf.1.program
  have hstep' := hstep
  rw [← hprogram] at hstep'
  rw [stepOnce_run hstep', run_map, blockStep_run hstep']
  cases hres : execute _ ctx ⟨f, s⟩ with
  | ok flow a => cases flow <;> rfl
  | error e a =>
    obtain ⟨hprog, hpc⟩ := execute_stays hb hp hf hstep hres
    have haim := region_aim hb hp hlive hopened
    rw [← hpc, ← hprog] at haim
    dsimp only
    rw [route_eq haim, run_map, run_map]
    cases blockRoute _ f.pc e bs ctx a <;> rfl

/-! ## 5. Runs -/

theorem not_waiting_of_running (hb : b.Accepted ty) (hrun : f.Running b) : ¬ f.Waiting b := by
  intro hw
  obtain ⟨i, states, o, j, hi, hop, -⟩ := operate_waiting hb hw
  have hgiven := hrun.given i hi
  rw [hop, hw.given] at hgiven
  cases hgiven

theorem suspend_state {saved : SavedFrame} (h : f.suspend? = .ok saved) :
    saved.state = f.state := by
  unfold Frame.suspend? at h
  split at h
  · cases h
  · cases h
    rfl

/-- **Wherever the machine with blocks comes, its blocks are those of the analysis.** -/
theorem follows_of_reaches (hb : b.Accepted ty) (hp : p.Of ty b) (h : Reaches p f bs) :
    f.Locked b p ∧ bs.Follows b f := by
  have hentry : (b.analysis.state 0).blocks = [] := (hb.solves.entry rfl).2.blocks.symm
  induction h with
  | start hlocals h =>
    obtain ⟨-, -, -, -, hpc, -, hgiven⟩ := newFrame_eq_ok h
    refine ⟨locked_of hb hp (.new hlocals h), ?_, fun hw => ?_⟩
    · rw [hpc, hentry]
      rfl
    · have := hw.given
      rw [hgiven] at this
      cases this
  | @step f bs bs' ctx s a hf h ih =>
    obtain ⟨hlocked, hbs⟩ := ih
    have hstep := step_locked hb hp hlocked (Tolerance.all_context ctx) (Tolerance.all_store s)
    rw [stepOnce_eq_blockStep hb hp hlocked hbs.opened, run_map, h] at hstep
    obtain ⟨-, hfit, hrun⟩ := hstep
    have hblocks : Blocks.stepped b (blockStep bs ctx ⟨f, s⟩) := blockStep_locked hb hp hlocked hbs
    rw [h] at hblocks
    exact ⟨⟨hfit, .inl hrun⟩, hblocks, fun hw => absurd hw (not_waiting_of_running hb hrun)⟩
  | @resume f bs bs' ctx s v a saved hf h hsaved r ih =>
    obtain ⟨hlocked, hbs⟩ := ih
    have hstep := step_locked hb hp hlocked (Tolerance.all_context ctx) (Tolerance.all_store s)
    rw [stepOnce_eq_blockStep hb hp hlocked hbs.opened, run_map, h] at hstep
    obtain ⟨-, saved', hsaved', hall⟩ := hstep
    rw [hsaved] at hsaved'
    cases hsaved'
    have hblocks : Blocks.stepped b (blockStep bs ctx ⟨f, s⟩) := blockStep_locked hb hp hlocked hbs
    rw [h] at hblocks
    refine ⟨⟨(hall r).1, .inr (hall r).2⟩, hentry.symm, fun _ o i hi hop => ?_⟩
    exact hblocks o i hi (hop.trans (congrArg Op.resumePoint (suspend_state hsaved)))

/-- **The table of regions refines the open blocks.** Wherever the machine with blocks comes, on any
run of a compiled program and through any suspensions:

* its open blocks are those that the analysis has for the offset;
* the table has a region for the offset exactly when a protected block is open, and the region names
  the handler of the innermost one, its level, and the level of the outermost handler that an
  exception leaves on the way;
* the machine without blocks takes the same step. -/
theorem regions_refine_blocks {c : Compiler} {code : CodeObject} {sig : CallSignature}
    {b : CompiledBody} {p : Program} (hb : c.analyze code sig = .ok b)
    (hp : c.emit b Program.emitter none = .ok p) {f : Frame} {bs : Blocks}
    (hf : Reaches p f bs) :
    bs.opened = (b.analysis.state f.pc).blocks
      ∧ ((Region.find? p.regions f.pc).isSome = true ↔ ∃ h l k, .protect h l k ∈ bs.opened)
      ∧ (∀ region, Region.find? p.regions f.pc = some region →
        ∃ caught, Caught.find? bs.opened = some caught ∧ region.handler = caught.handler
          ∧ region.level = caught.level ∧ region.restoreAt = caught.restoreAt)
      ∧ ∀ ctx s, stepOnce ctx ⟨f, s⟩ = (Prod.fst <$> blockStep bs) ctx ⟨f, s⟩ := by
  obtain ⟨-, -, haccepted⟩ := CompiledBody.analyze_accepted hb
  have hof := Program.of_emit haccepted hp
  obtain ⟨hlocked, hbs⟩ := follows_of_reaches haccepted hof hf
  have haim := region_aim haccepted hof (locked_live haccepted hlocked) hbs.opened
  refine ⟨hbs.opened, ?_, fun region hregion => ?_, fun ctx s =>
    stepOnce_eq_blockStep haccepted hof hlocked hbs.opened⟩
  · rw [← Caught.find?_isSome, ← Option.isSome_map (f := Region.aim), haim, Option.isSome_map]
  · rw [hregion] at haim
    obtain ⟨caught, hcaught, haim⟩ := Option.map_eq_some_iff.mp haim.symm
    simp only [Caught.aim, Region.aim, Prod.mk.injEq] at haim
    exact ⟨caught, hcaught, haim.1.symm, haim.2.1.symm, haim.2.2.symm⟩

/-- A function that raises and catches: `try: raise` and `except: pass`. -/
def raiseAndCatch : CodeObject :=
  { CodeObject.blank 0 "f" "f.py" with
    code := [122, 1, 130, 0, 1, 0, 1, 0, 1, 0, 89, 0, 100, 0, 83, 0]
    constants := [.none] }

/-- It opens its block, raises, and comes to its handler. -/
theorem raiseAndCatch_handles :
    (match compile (Compiler.ofModel TypeModel.empty {}) raiseAndCatch .dynamic with
      | .error _ => false
      | .ok p => match newFrame p (Function.ofCode raiseAndCatch default default) #[]
          (context (Compiler.ofModel TypeModel.empty {}) Digest.standard 1) default with
        | .error _ _ => false
        | .ok f _ => match blockStep .empty
            (context (Compiler.ofModel TypeModel.empty {}) Digest.standard 1) ⟨f, default⟩ with
          | .ok (none, bs) a => match blockStep bs
              (context (Compiler.ofModel TypeModel.empty {}) Digest.standard 1)
              ⟨a.frame, default⟩ with
            | .ok (none, bs) _ => p.code.localCount == 0 && bs.opened == [.handling 0]
            | _ => false
          | _ => false) = true := by
  simp only [compile, Compiler.analyze, CompiledBody.analyze, CompiledBody.build,
    CompiledBody.settle, Body.decode, InstructionStream.decode, InstructionStream.strayJump?_eq]
  decide +kernel

theorem regions_refine_blocks_raiseAndCatch : ∃ b p f bs,
    (Compiler.ofModel TypeModel.empty {}).analyze raiseAndCatch .dynamic = .ok b
      ∧ (Compiler.ofModel TypeModel.empty {}).emit b Program.emitter none = .ok p
      ∧ Reaches p f bs ∧ bs.opened = [.handling 0] ∧ (b.analysis.state f.pc).blocks = [.handling 0]
      ∧ Region.find? p.regions f.pc = none := by
  have hrun := raiseAndCatch_handles
  split at hrun
  · cases hrun
  · rename_i p hp
    obtain ⟨b, hb, hp⟩ := bind_eq_ok.mp hp
    split at hrun
    · cases hrun
    · rename_i f s' hf
      split at hrun
      · rename_i bs₁ a₁ hfirst
        split at hrun
        · rename_i bs a hsecond
          rw [Bool.and_eq_true, beq_iff_eq, beq_iff_eq] at hrun
          have hlocals : (#[] : Array (Option Value)).size = p.code.localCount := hrun.1.symm
          have hreaches : Reaches p a.frame bs := .step (.step (.start hlocals hf) hfirst) hsecond
          obtain ⟨hopened, hregion, -⟩ := regions_refine_blocks hb hp hreaches
          refine ⟨b, p, a.frame, bs, hb, hp, hreaches, hrun.2, hopened ▸ hrun.2, ?_⟩
          rw [← Option.not_isSome_iff_eq_none, hregion, hrun.2]
          rintro ⟨h, l, k, hmem⟩
          cases List.mem_singleton.mp hmem
        · cases hrun
      · cases hrun

end Machine

end Stackwise
